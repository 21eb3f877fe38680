import GuestHost.Compiler.Output
import GuestHost.Text.Utf8

/-! A compiler behind a C interface. Its results are opaque pointers, null included;
texts end at the first NUL, and an absent or empty text counts as none. -/

namespace GuestHost.Foreign

/-- A call of the foreign interface. -/
inductive Call
  | load (source : Array UInt8) (options : Options)
  | support (optimize : Bool)
  | getError
  | getSize
  | getData
  | getListing (f : ListingFormat)
  | getSourceMap
  | cleanUp
  deriving DecidableEq, Repr

/-- The call that makes a request. -/
def Call.of : Request → Call
  | .script source options => .load source options
  | .support optimize => .support optimize

/-- A result the foreign compiler owns; a missing field is a null pointer. -/
structure Result where
  error : Option (Array UInt8) := none
  data : Option (Array UInt8) := none
  size : Nat := 0
  listing : ListingFormat → Option (Array UInt8) := fun _ => none
  sourceMap : Option (Array UInt8) := none

/-- The text at a C string pointer. -/
def text? (pointer : Option (Array UInt8)) : Option String :=
  pointer.bind fun bytes =>
    let s := Utf8.decodeLossy (bytes.takeWhile (· != 0))
    if s.isEmpty then none else some s

/-- The payload: `size` bytes of data, none if there is no data. -/
def Result.payload (r : Result) : Array UInt8 :=
  match r.data with
  | none => #[]
  | some data => data.take r.size

/-- The complaint made of a null result. -/
def noResult : String := "compiler returned no result"

/-- Makes a call and records it. -/
def call {α : Type} (c : Call) (a : α) : StateM (List Call) α :=
  modifyGet fun log => (a, log ++ [c])

/-- A foreign result in the host's hands, null included. -/
structure Output where
  raw : Option Result

namespace Output

/-- The end of its life: a result that is there is cleaned up, and gone afterwards. -/
def drop (o : Output) : StateM (List Call) Output :=
  match o.raw with
  | none => return o
  | some _ => do
    call .cleanUp ()
    return ⟨none⟩

/-- A release on purpose does nothing of its own. The output's life ends with it. -/
def release (o : Output) : StateM (List Call) Unit := do
  let _ ← o.drop

end Output

/-- A foreign result, or a null pointer, as a source that records the calls it takes.
No call is ever made on a null pointer. -/
def source : Option Result → OutputSource (StateM (List Call))
  | none =>
    { error := pure (some noResult)
      payload := pure #[]
      listing := fun _ => pure none
      sourceMap := pure none
      release := (⟨none⟩ : Output).release }
  | some r =>
    { error := call .getError (text? r.error)
      payload := do
        let _ ← call .getSize r.size
        call .getData r.payload
      listing := fun f => call (.getListing f) (text? (r.listing f))
      sourceMap := call .getSourceMap (text? r.sourceMap)
      release := (⟨some r⟩ : Output).release }

/-- A foreign compiler. What it makes of a request is a result or a null pointer. -/
structure Library where
  answer : Request → Option Result

namespace Library

/-- Makes a request. The result is not looked at yet. -/
def request (l : Library) (r : Request) : StateM (List Call) (OutputSource (StateM (List Call))) :=
  call (.of r) (source (l.answer r))

/-- Makes a request and consumes the result; also returns the calls made, in order. -/
def compile (l : Library) (r : Request) (format : Option ListingFormat) :
    Except Error Decoded × List Call :=
  (do (← l.request r).consume format : StateM (List Call) (Except Error Decoded)).run []

end Library

end GuestHost.Foreign
