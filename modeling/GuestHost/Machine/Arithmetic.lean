import GuestHost.Machine.Failure
import GuestHost.Machine.Memory
import GuestHost.Machine.Val

/-! What operators compute. Stacks are listed from the top. -/

namespace GuestHost.Machine

open Wasm

/-- The integral part of a number, if it lies from `low` up to below `high`. -/
def truncated (low high : Int) (x : Binary64) : Except Trap Int :=
  if x.isNaN then .error .invalidConversion
  else if x.isFinite ∧ low ≤ x.truncate ∧ x.truncate < high then .ok x.truncate
  else .error .integerOverflow

/-- Signed quotient, rounded toward zero. -/
def divideSigned (a b : UInt32) : Except Trap UInt32 :=
  if b = 0 then .error .divideByZero
  else if a = 0x80000000 ∧ b = 0xFFFFFFFF then .error .integerOverflow
  else .ok (a.toInt32 / b.toInt32).toUInt32

/-- A numeric operator on the stack. -/
def numeric (op : Numeric) (stack : List Val) : Except Trap (List Val) :=
  match op, stack with
  | .i32Eqz, .i32 a :: s => .ok (.ofBool (a == 0) :: s)
  | .i32Eq, .i32 b :: .i32 a :: s => .ok (.ofBool (a == b) :: s)
  | .i32Ne, .i32 b :: .i32 a :: s => .ok (.ofBool (a != b) :: s)
  | .i32LeU, .i32 b :: .i32 a :: s => .ok (.ofBool (a ≤ b) :: s)
  | .i32GeS, .i32 b :: .i32 a :: s => .ok (.ofBool (b.toInt32 ≤ a.toInt32) :: s)
  | .i32GeU, .i32 b :: .i32 a :: s => .ok (.ofBool (b ≤ a) :: s)
  | .i32Add, .i32 b :: .i32 a :: s => .ok (.i32 (a + b) :: s)
  | .i32Sub, .i32 b :: .i32 a :: s => .ok (.i32 (a - b) :: s)
  | .i32Mul, .i32 b :: .i32 a :: s => .ok (.i32 (a * b) :: s)
  | .i32DivS, .i32 b :: .i32 a :: s => (divideSigned a b).map fun q => .i32 q :: s
  | .i32RemU, .i32 b :: .i32 a :: s =>
    if b = 0 then .error .divideByZero else .ok (.i32 (a % b) :: s)
  | .i32And, .i32 b :: .i32 a :: s => .ok (.i32 (a &&& b) :: s)
  | .i32Xor, .i32 b :: .i32 a :: s => .ok (.i32 (a ^^^ b) :: s)
  | .i32Shl, .i32 b :: .i32 a :: s => .ok (.i32 (a <<< (b % 32)) :: s)
  | .i64Add, .i64 b :: .i64 a :: s => .ok (.i64 (a + b) :: s)
  | .i64Mul, .i64 b :: .i64 a :: s => .ok (.i64 (a * b) :: s)
  | .i64DivU, .i64 b :: .i64 a :: s =>
    if b = 0 then .error .divideByZero else .ok (.i64 (a / b) :: s)
  | .f64Add, .f64 b :: .f64 a :: s => .ok (.f64 (a.add b) :: s)
  | .i32WrapI64, .i64 a :: s => .ok (.i32 a.toUInt32 :: s)
  | .i32TruncF64S, .f64 a :: s =>
    (truncated (-0x80000000) 0x80000000 a).map fun n => .i32 (UInt32.ofInt n) :: s
  | .i32TruncF64U, .f64 a :: s =>
    (truncated 0 0x100000000 a).map fun n => .i32 (UInt32.ofInt n) :: s
  | .i64ExtendI32S, .i32 a :: s => .ok (.i64 a.toInt32.toInt64.toUInt64 :: s)
  | .i64ExtendI32U, .i32 a :: s => .ok (.i64 a.toUInt64 :: s)
  | .i64TruncF64S, .f64 a :: s =>
    (truncated (-0x8000000000000000) 0x8000000000000000 a).map fun n => .i64 (UInt64.ofInt n) :: s
  | .f64ConvertI32S, .i32 a :: s => .ok (.f64 (.ofInt a.toInt32.toInt) :: s)
  | _, _ => .error .illTyped

/-- The value that bytes read by an operator stand for. -/
def loaded (k : Load) (bs : List UInt8) : Val :=
  let w := bytesWord bs
  match k with
  | .i32 => .i32 (UInt32.ofNat w)
  | .i64 => .i64 (UInt64.ofNat w)
  | .f64 => .f64 ⟨UInt64.ofNat w⟩
  | .i32From8S => .i32 (UInt8.ofNat w).toInt8.toInt32.toUInt32
  | .i32From8U => .i32 (UInt32.ofNat w)

/-- The bytes an operator writes for a value, if it writes values of that type. -/
def stored? (k : Wasm.Store) (v : Val) : Option (List UInt8) :=
  match k, v with
  | .i32, .i32 w => some (wordBytes 4 w.toNat)
  | .i64, .i64 w => some (wordBytes 8 w.toNat)
  | .f64, .f64 x => some (wordBytes 8 x.bits.toNat)
  | .i32To8, .i32 w => some (wordBytes 1 w.toNat)
  | _, _ => none

namespace Memory

/-- Reads a value at an address. -/
def load (m : Memory) (k : Load) (a : Nat) : Except Trap Val :=
  match m.read? a (Nat.pow 2 k.widthLog2) with
  | some bs => .ok (loaded k bs)
  | none => .error .memoryBounds

/-- Writes a value at an address. -/
def store (m : Memory) (k : Wasm.Store) (a : Nat) (v : Val) : Except Trap Memory :=
  match stored? k v with
  | none => .error .illTyped
  | some bs =>
    match m.write? a bs with
    | some m => .ok m
    | none => .error .memoryBounds

end Memory

end GuestHost.Machine
