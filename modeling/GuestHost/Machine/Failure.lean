import GuestHost.Error

/-! Why a run of guest code ends early. -/

namespace GuestHost.Machine

/-- An operator that cannot go on. -/
inductive Trap
  | unreachable
  | memoryBounds
  | divideByZero
  | integerOverflow
  | invalidConversion
  /-- A table entry without a function. -/
  | uninitializedElement
  /-- An index past the end of a table. -/
  | tableBounds
  | signatureMismatch
  | callStackExhausted
  /-- Operands that no valid module brings together. -/
  | illTyped
  deriving DecidableEq, Repr

/-- The reason alone. -/
def Trap.reason : Trap → String
  | unreachable => "wasm `unreachable` instruction executed"
  | memoryBounds => "out of bounds memory access"
  | divideByZero => "integer divide by zero"
  | integerOverflow => "integer overflow"
  | invalidConversion => "invalid conversion to integer"
  | uninitializedElement => "uninitialized element"
  | tableBounds => "undefined element: out of bounds table access"
  | signatureMismatch => "indirect call type mismatch"
  | callStackExhausted => "call stack exhausted"
  | illTyped => "operands of the wrong type"

def Trap.message (t : Trap) : String := "wasm trap: " ++ t.reason

/-- What ended a run: an operator, a raised guest value, a capability of the host,
or a capability that failed with a text of its own. -/
inductive Failure
  | trap (t : Trap)
  | thrown (value : Int32)
  | host (cause : Error)
  | message (text : String)
  deriving DecidableEq, Repr

/-- The wording of a failure where only a text can be kept: its innermost reason, without the
functions that were under way. -/
def Failure.text : Failure → String
  | trap t => t.message
  | thrown value => thrownMessage value
  | host cause => cause.message
  | message text => text

end GuestHost.Machine
