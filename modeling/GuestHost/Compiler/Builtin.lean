import GuestHost.Compiler.Output
import GuestHost.Support.Module
import GuestHost.Wasm.Listing.Operators
import GuestHost.Wasm.Listing.Text
import GuestHost.Wasm.Payload
import GuestHost.Wasm.Text.Fields

/-! The built-in compiler. Its sources are modules in text or binary form; the flags
of a request change nothing, for such a module is in its final shape. -/

namespace GuestHost.Builtin

open Wasm

/-- Why a source was rejected. -/
inductive Rejection
  | malformed
  | invalid
  deriving DecidableEq, Repr

def Rejection.message : Rejection → String
  | malformed => "malformed module text"
  | invalid => "invalid module"

/-- The bytes a source stands for: a binary module stands for itself. -/
def assemble (source : Array UInt8) : Option (List UInt8) :=
  if source.toList.take 4 = Binary.header.take 4 then some source.toList
  else
    match (Utf8.decode? source).bind Text.parse? with
    | some (.module m) => some (Binary.module m)
    | some .component => some emptyComponent
    | none => none

/-- What such a compiler is put together from: how sources are assembled, how bytes are checked,
taken apart and printed, and how an operator is written. -/
structure Toolchain (ω : Type) where
  assemble : Array UInt8 → Option (List UInt8)
  validates : List UInt8 → Bool
  parse : List UInt8 → List (Option (Listing.Part ω))
  print : List UInt8 → Option String
  operator : ω → String

namespace Toolchain

variable {ω : Type} (t : Toolchain ω)

/-- The listing of valid bytes in one of the forms. -/
def listing (bytes : List UInt8) : ListingFormat → Option String
  | .function => t.print bytes
  | .stack => Listing.stack t.operator (t.parse bytes)

/-- The answer for a source that stands for the bytes, if it stands for any. -/
def answer (bytes : Option (List UInt8)) : CompilerOutput :=
  match bytes with
  | none => { error := some Rejection.malformed.message }
  | some bytes =>
    if t.validates bytes then
      { payload := bytes.toArray
        listing := t.listing bytes }
    else { error := some Rejection.invalid.message }

/-- The compiler with these tools and the binary form of its support module. It never breaks
down. -/
def compiler (support : List UInt8) : Compiler where
  answer
    | .script source _ => .ok (t.answer (t.assemble source))
    | .support _ => .ok (t.answer (some support))

end Toolchain

/-- The parts that a payload is listed from. -/
def parts : Payload → List (Option (Listing.Part Operator))
  | .module m => Listing.parts m
  | .component => [some .other]

/-- A payload re-printed as text. -/
def print : Payload → String
  | .module m => Listing.Text.module m
  | .component => "(component)\n"

/-- The tools of the project itself. -/
def tools : Toolchain Operator where
  assemble
  validates bytes := (Payload.ofBytes? bytes).isSome
  parse bytes := ((Payload.ofBytes? bytes).map parts).getD [none]
  print bytes := (Payload.ofBytes? bytes).map print
  operator := Listing.operator

/-- The answer for bytes. -/
def answer (bytes : Option (List UInt8)) : CompilerOutput := tools.answer bytes

/-- The built-in compiler. -/
def compiler : Compiler := tools.compiler (Binary.module Support.module)

end GuestHost.Builtin
