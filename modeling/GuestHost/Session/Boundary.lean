import GuestHost.Machine.Step
import GuestHost.Tag
import GuestHost.Text.Utf8

/-! Values across the boundary. The host never touches guest memory: it boxes and
reads values through functions that the guest's support instance exports. -/

namespace GuestHost

open Machine
open Wasm (ValType FuncType)

/-- Work on a store that runs guest code: it can fail, the store keeps what was done
even then, and there is no answer if a run needs more steps than it may take. -/
abbrev Guest (α : Type) := ExceptT Error (StateT Store Option) α

/-- What the boundary is crossed with: the surroundings of guest code, the steps each
run may take, and the instance that exports the helpers. -/
structure Boundary where
  env : Environment
  fuel : Nat
  support : Nat

namespace Boundary

/-- The reference that stands for nil. -/
def nil : UInt32 := 0

/-- Runs a function of the machine. -/
def invoke (b : Boundary) (func : Nat) (args : List Val) : Guest (Except Failure (List Val)) :=
  ExceptT.lift fun s => Machine.invoke b.env b.fuel s func args

/-- Works on the host's side. -/
def onHost {α : Type} (f : Host → α × Host) : Guest α :=
  ExceptT.lift fun s =>
    let (a, host) := f s.host
    some (a, { s with host })

/-- Stores bytes in a fresh buffer. -/
def storeBuffer (bytes : ByteArray) : Guest Handle :=
  ExceptT.lift fun s => (s.host.insert bytes).map fun (buffer, host) => (buffer, { s with host })

/-- Calls a helper, which must be exported with this type. -/
def helper (b : Boundary) (name : String) (type : FuncType) (args : List Val) :
    Guest (List Val) := do
  let s ← get
  match (s.exportedFunc? b.support name).filter fun a => s.hasType a type with
  | none => throw (.missingExport name)
  | some a =>
    match ← b.invoke a args with
    | .ok vals => return vals
    | .error e => throw (.trap (name ++ ": " ++ e.text))

/-- What no helper of the right type returns. -/
def badResult {α : Type} : Guest α := throw (.trap Trap.illTyped.message)

/-- Calls a helper that returns a word. -/
def word (b : Boundary) (name : String) (params : List ValType) (args : List Val) :
    Guest UInt32 := do
  match ← b.helper name ⟨params, [.i32]⟩ args with
  | [.i32 w] => return w
  | _ => badResult

/-! From host to guest. -/

/-- Boxes a text: its bytes go into a buffer that is gone again afterwards, whether or
not boxing succeeds. -/
def lowerText (b : Boundary) (text : String) : Guest UInt32 := do
  let buffer ← storeBuffer ⟨Utf8.encode text⟩
  let boxed ← (tryCatch (Except.ok <$> b.word "box_string" [.i32] [.ofInt32 buffer])
    fun e => pure (Except.error e) : Guest (Except Error UInt32))
  let _ ← onHost fun h => h.take buffer
  match boxed with
  | .ok r => return r
  | .error e => throw e

/-- The reference that stands for a value. -/
def lower (b : Boundary) : Value → Guest UInt32
  | .nil => return nil
  | .integer n => b.word "box_integer" [.i64] [.i64 n.toUInt64]
  | .number x => b.word "box_number" [.f64] [.f64 x]
  | .text s => b.lowerText s

/-- Stores values in an array from an index on. -/
def storeFrom (b : Boundary) (array : UInt32) : Nat → List Value → Guest Unit
  | _, [] => return ()
  | i, v :: vs => do
    let r ← b.lower v
    let _ ← b.helper "any_array_set" ⟨[.i32, .i32, .i32], []⟩
      [.i32 array, .i32 (UInt32.ofNat i), .i32 r]
    b.storeFrom array (i + 1) vs

/-- The array of arguments; without any there is none. -/
def pack (b : Boundary) (args : List Value) : Guest UInt32 := do
  if args.isEmpty then return nil
  else if Int32.maxValue.toInt < args.length then throw (.invalidLength Int32.maxValue)
  else
    let array ← b.word "any_array_create" [.i32] [.i32 (UInt32.ofNat args.length)]
    b.storeFrom array 0 args
    return array

/-! From guest to host. -/

/-- The text in a box, by way of a buffer that is consumed. -/
def liftText (b : Boundary) (r : UInt32) : Guest Value := do
  let buffer ← b.word "to_host_string" [.i32] [.i32 r]
  match ← onHost fun h => h.take buffer.toInt32 with
  | .ok bytes => return .text (Utf8.decodeLossy bytes)
  | .error e => throw e

/-- The value a reference stands for. -/
def lift (b : Boundary) (r : UInt32) : Guest Value := do
  if r = nil then return .nil
  else
    let raw ← b.word "get_type_num" [.i32] [.i32 r]
    match Tag.ofCode? raw.toInt32 with
    | none => throw (.unsupportedTag ("#" ++ toString raw.toInt32.toInt))
    | some .nil => return .nil
    | some .integer =>
      match ← b.helper "to_host_integer" ⟨[.i32], [.i64]⟩ [.i32 r] with
      | [.i64 n] => return .integer n.toInt64
      | _ => badResult
    | some .number =>
      match ← b.helper "to_host_number" ⟨[.i32], [.f64]⟩ [.i32 r] with
      | [.f64 x] => return .number x
      | _ => badResult
    | some .string => b.liftText r
    | some t => throw (.unsupportedTag t.name)

/-- Lifts the elements of an array from an index on, `n` of them; `acc` holds those
before, last first. -/
def liftFrom (b : Boundary) (array : UInt32) (acc : List Value) : Nat → Nat → Guest (List Value)
  | _, 0 => return acc.reverse
  | i, n + 1 => do
    let r ← b.word "any_array_get" [.i32, .i32] [.i32 array, .i32 (UInt32.ofNat i)]
    let v ← b.lift r
    b.liftFrom array (v :: acc) (i + 1) n

/-- What an array of results holds; nil holds nothing. The length counts as a signed
word, and a negative one as none. The list of the elements grows as they are read: there is room
for as many as the guest claims to return. -/
def unpack (b : Boundary) (array : UInt32) : Guest Returned := do
  if array = nil then return .empty
  else
    let size ← b.word "any_array_size" [.i32] [.i32 array]
    return .ofList (← b.liftFrom array [] 0 size.toInt32.toInt.toNat)

/-- What a failed call of an entry comes to: a raised value is lifted, a failed
capability is reported with its cause, and anything else is a trap. -/
def failed {α : Type} (b : Boundary) : Failure → Guest α
  | .thrown v => do
    let value ← b.lift v.toUInt32
    throw (.runtime value)
  | .host cause => throw (.host cause)
  | .trap t => throw (.trap t.message)
  | .message text => throw (.trap text)

/-- What a call comes to, given how the run of its entry ended. -/
def conclude (b : Boundary) : Except Failure (List Val) → Guest Returned
  | .ok [.i32 r] => b.unpack r
  | .ok _ => badResult
  | .error e => b.failed e

/-- The type of an entry: one reference in, one reference out. -/
def entryType : FuncType := ⟨[.i32], [.i32]⟩

/-- Calls an entry with values and returns the values it returns. -/
def call (b : Boundary) (entry : Nat) (args : List Value) : Guest Returned := do
  let s ← get
  if s.hasType entry entryType then
    let packed ← b.pack args
    b.conclude (← b.invoke entry [.i32 packed])
  else throw (.missingExport entryName)

end Boundary

end GuestHost
