import GuestHost.Wasm.Operator

/-! Values on the machine's stack, in locals and in globals. -/

namespace GuestHost.Machine

open Wasm

/-- A value of one of the value types; a reference holds the address of a function,
or nothing when it is null. -/
inductive Val
  | i32 (w : UInt32)
  | i64 (w : UInt64)
  | f32 (bits : UInt32)
  | f64 (x : Binary64)
  | ref (func : Option Nat)
  deriving DecidableEq, Repr

namespace Val

def type : Val → ValType
  | i32 _ => .i32
  | i64 _ => .i64
  | f32 _ => .f32
  | f64 _ => .f64
  | ref _ => .funcref

/-- The value that locals and tables start with. -/
def zero : ValType → Val
  | .i32 => i32 0
  | .i64 => i64 0
  | .f32 => f32 0
  | .f64 => f64 ⟨0⟩
  | .funcref => ref none

@[simp] theorem type_zero (t : ValType) : (zero t).type = t := by
  cases t <;> rfl

/-- One for true and zero for false. -/
def ofBool (b : Bool) : Val := i32 (if b then 1 else 0)

/-- A word the host passes as a signed one. -/
def ofInt32 (n : Int32) : Val := i32 n.toUInt32

end Val

end GuestHost.Machine
