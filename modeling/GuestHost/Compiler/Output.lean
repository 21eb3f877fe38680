import GuestHost.Compiler.Listing
import GuestHost.Error

/-! The results of a compiler and how the host consumes one: every part it keeps is
copied out first, then the result is released. -/

namespace GuestHost

/-- Everything the host keeps from a successful compilation. -/
structure Decoded where
  payload : Array UInt8
  listing : Option String
  sourceMap : Option String
  deriving DecidableEq, Repr

/-- What a compiler result can be asked, in a monad that records the asking. -/
structure OutputSource (m : Type → Type) where
  error : m (Option String)
  payload : m (Array UInt8)
  listing : ListingFormat → m (Option String)
  sourceMap : m (Option String)
  release : m Unit

/-- A result in the host's hands, until it is released. -/
structure Holder (m : Type → Type) where
  held : Option (OutputSource m)

namespace Holder

variable {m : Type → Type} [Monad m]

/-- Releases what is held, and holds nothing afterwards. -/
def release (h : Holder m) : m (Holder m) :=
  match h.held with
  | none => return h
  | some o => do
    o.release
    return ⟨none⟩

/-- The end of a holder's life: what it still holds is released. -/
def drop (h : Holder m) : m Unit := do
  let _ ← h.release

/-- A release on purpose. The holder's life ends with it. -/
def finish (h : Holder m) : m Unit := do
  let h ← h.release
  h.drop

end Holder

/-- Consumes a result. A reported error ends the asking; every way out releases the
result as its last act. Each request is answered: a compiler breaks down before it hands out
a result or not at all. -/
def OutputSource.consume {m : Type → Type} [Monad m] (o : OutputSource m)
    (format : Option ListingFormat) : m (Except Error Decoded) := do
  let holder : Holder m := ⟨some o⟩
  match ← o.error with
  | some text =>
    holder.finish
    return .error (.compile text)
  | none =>
    let payload ← o.payload
    let listing ← match format with
      | some f => o.listing f
      | none => pure none
    let sourceMap ← o.sourceMap
    holder.finish
    return .ok ⟨payload, listing, sourceMap⟩

/-- One request made of a compiler result. -/
inductive Touch
  | error
  | payload
  | listing (f : ListingFormat)
  | sourceMap
  | release
  deriving DecidableEq, Repr

/-- A compiler result with all its answers known. -/
structure CompilerOutput where
  error : Option String := none
  payload : Array UInt8 := #[]
  listing : ListingFormat → Option String := fun _ => none
  sourceMap : Option String := none

namespace CompilerOutput

/-- Asks a part of the result and records the request. -/
def asked {α : Type} (t : Touch) (a : α) : StateM (List Touch) α :=
  modifyGet fun log => (a, log ++ [t])

/-- The result as a source that records each request. -/
def source (o : CompilerOutput) : OutputSource (StateM (List Touch)) where
  error := asked .error o.error
  payload := asked .payload o.payload
  listing f := asked (.listing f) (o.listing f)
  sourceMap := asked .sourceMap o.sourceMap
  release := asked .release ()

/-- Consumes the result; also returns the requests made of it, in order. -/
def consume (o : CompilerOutput) (format : Option ListingFormat) :
    Except Error Decoded × List Touch :=
  (o.source.consume format).run []

/-- Releases the result without looking at it. -/
def discard (o : CompilerOutput) : List Touch :=
  ((⟨some o.source⟩ : Holder (StateM (List Touch))).drop.run []).2

end CompilerOutput

/-- The flags every compilation of a session carries. -/
structure Options where
  optimize : Bool := true
  standalone : Bool := false
  deriving DecidableEq, Repr

/-- What a compiler is asked for. -/
inductive Request
  | script (source : Array UInt8) (options : Options)
  /-- The support module; only the first of the flags concerns it. -/
  | support (optimize : Bool)
  deriving DecidableEq, Repr

/-- A compiler: it answers each request with a result, or breaks down with a message. -/
structure Compiler where
  answer : Request → Except String CompilerOutput
  /-- The answer to a request that `n` others went before. Only a compiler that
  remembers them answers otherwise than at first. -/
  answerAt (n : Nat) : Request → Except String CompilerOutput := answer

end GuestHost
