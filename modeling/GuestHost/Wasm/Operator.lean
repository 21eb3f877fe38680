import GuestHost.Number.Binary64
import GuestHost.Wasm.Types

/-! The operators of function bodies, each with its name in module text, its name in
operator listings and its opcode. A body is a flat sequence of them. -/

namespace GuestHost.Wasm

/-- Operators that take and leave values on the stack and touch nothing else. Of the numeric
operators there are those that the support module and scripts use; none works on 32-bit floats. -/
inductive Numeric
  | i32Eqz
  | i32Eq
  | i32Ne
  | i32LeU
  | i32GeS
  | i32GeU
  | i32Add
  | i32Sub
  | i32Mul
  | i32DivS
  | i32RemU
  | i32And
  | i32Xor
  | i32Shl
  | i64Add
  | i64Mul
  | i64DivU
  | f64Add
  | i32WrapI64
  | i32TruncF64S
  | i32TruncF64U
  | i64ExtendI32S
  | i64ExtendI32U
  | i64TruncF64S
  | f64ConvertI32S
  deriving DecidableEq, Repr

/-- How an operator is written, and what it takes and leaves. -/
structure Signature where
  text : String
  label : String
  opcode : UInt8
  params : List ValType
  results : List ValType

namespace Numeric

def signature : Numeric → Signature
  | i32Eqz => ⟨"i32.eqz", "I32Eqz", 0x45, [.i32], [.i32]⟩
  | i32Eq => ⟨"i32.eq", "I32Eq", 0x46, [.i32, .i32], [.i32]⟩
  | i32Ne => ⟨"i32.ne", "I32Ne", 0x47, [.i32, .i32], [.i32]⟩
  | i32LeU => ⟨"i32.le_u", "I32LeU", 0x4D, [.i32, .i32], [.i32]⟩
  | i32GeS => ⟨"i32.ge_s", "I32GeS", 0x4E, [.i32, .i32], [.i32]⟩
  | i32GeU => ⟨"i32.ge_u", "I32GeU", 0x4F, [.i32, .i32], [.i32]⟩
  | i32Add => ⟨"i32.add", "I32Add", 0x6A, [.i32, .i32], [.i32]⟩
  | i32Sub => ⟨"i32.sub", "I32Sub", 0x6B, [.i32, .i32], [.i32]⟩
  | i32Mul => ⟨"i32.mul", "I32Mul", 0x6C, [.i32, .i32], [.i32]⟩
  | i32DivS => ⟨"i32.div_s", "I32DivS", 0x6D, [.i32, .i32], [.i32]⟩
  | i32RemU => ⟨"i32.rem_u", "I32RemU", 0x70, [.i32, .i32], [.i32]⟩
  | i32And => ⟨"i32.and", "I32And", 0x71, [.i32, .i32], [.i32]⟩
  | i32Xor => ⟨"i32.xor", "I32Xor", 0x73, [.i32, .i32], [.i32]⟩
  | i32Shl => ⟨"i32.shl", "I32Shl", 0x74, [.i32, .i32], [.i32]⟩
  | i64Add => ⟨"i64.add", "I64Add", 0x7C, [.i64, .i64], [.i64]⟩
  | i64Mul => ⟨"i64.mul", "I64Mul", 0x7E, [.i64, .i64], [.i64]⟩
  | i64DivU => ⟨"i64.div_u", "I64DivU", 0x80, [.i64, .i64], [.i64]⟩
  | f64Add => ⟨"f64.add", "F64Add", 0xA0, [.f64, .f64], [.f64]⟩
  | i32WrapI64 => ⟨"i32.wrap_i64", "I32WrapI64", 0xA7, [.i64], [.i32]⟩
  | i32TruncF64S => ⟨"i32.trunc_f64_s", "I32TruncF64S", 0xAA, [.f64], [.i32]⟩
  | i32TruncF64U => ⟨"i32.trunc_f64_u", "I32TruncF64U", 0xAB, [.f64], [.i32]⟩
  | i64ExtendI32S => ⟨"i64.extend_i32_s", "I64ExtendI32S", 0xAC, [.i32], [.i64]⟩
  | i64ExtendI32U => ⟨"i64.extend_i32_u", "I64ExtendI32U", 0xAD, [.i32], [.i64]⟩
  | i64TruncF64S => ⟨"i64.trunc_f64_s", "I64TruncF64S", 0xB0, [.f64], [.i64]⟩
  | f64ConvertI32S => ⟨"f64.convert_i32_s", "F64ConvertI32S", 0xB7, [.i32], [.f64]⟩

def all : List Numeric :=
  [i32Eqz, i32Eq, i32Ne, i32LeU, i32GeS, i32GeU, i32Add, i32Sub, i32Mul, i32DivS, i32RemU,
    i32And, i32Xor, i32Shl, i64Add, i64Mul, i64DivU, f64Add, i32WrapI64, i32TruncF64S,
    i32TruncF64U, i64ExtendI32S, i64ExtendI32U, i64TruncF64S, f64ConvertI32S]

end Numeric

/-- Reads of memory: a width, and how narrow reads are widened. -/
inductive Load
  | i32
  | i64
  | f64
  | i32From8S
  | i32From8U
  deriving DecidableEq, Repr

namespace Load

def text : Load → String
  | i32 => "i32.load"
  | i64 => "i64.load"
  | f64 => "f64.load"
  | i32From8S => "i32.load8_s"
  | i32From8U => "i32.load8_u"

def label : Load → String
  | i32 => "I32Load"
  | i64 => "I64Load"
  | f64 => "F64Load"
  | i32From8S => "I32Load8S"
  | i32From8U => "I32Load8U"

def opcode : Load → UInt8
  | i32 => 0x28
  | i64 => 0x29
  | f64 => 0x2B
  | i32From8S => 0x2C
  | i32From8U => 0x2D

/-- Binary logarithm of the number of bytes read. -/
def widthLog2 : Load → Nat
  | i32 => 2
  | i64 => 3
  | f64 => 3
  | i32From8S => 0
  | i32From8U => 0

def result : Load → ValType
  | i64 => .i64
  | f64 => .f64
  | _ => .i32

def all : List Load := [i32, i64, f64, i32From8S, i32From8U]

end Load

/-- Writes of memory. -/
inductive Store
  | i32
  | i64
  | f64
  | i32To8
  deriving DecidableEq, Repr

namespace Store

def text : Store → String
  | i32 => "i32.store"
  | i64 => "i64.store"
  | f64 => "f64.store"
  | i32To8 => "i32.store8"

def label : Store → String
  | i32 => "I32Store"
  | i64 => "I64Store"
  | f64 => "F64Store"
  | i32To8 => "I32Store8"

def opcode : Store → UInt8
  | i32 => 0x36
  | i64 => 0x37
  | f64 => 0x39
  | i32To8 => 0x3A

/-- Binary logarithm of the number of bytes written. -/
def widthLog2 : Store → Nat
  | i32 => 2
  | i64 => 3
  | f64 => 3
  | i32To8 => 0

def operand : Store → ValType
  | i64 => .i64
  | f64 => .f64
  | _ => .i32

def all : List Store := [i32, i64, f64, i32To8]

end Store

/-- Alignment, as a binary logarithm, and constant offset of a memory access. -/
structure MemArg where
  align : Nat
  offset : Nat
  deriving DecidableEq, Repr

/-- Operators after which control goes to the next one. There are none for vectors, for atomic
access, or for work on whole ranges of a memory or table but its initialization. -/
inductive Plain
  | unreachable
  | nop
  | drop
  | select
  | localGet (i : Nat)
  | localSet (i : Nat)
  | localTee (i : Nat)
  | globalGet (i : Nat)
  | globalSet (i : Nat)
  | tableGet (i : Nat)
  | tableSet (i : Nat)
  | load (k : Load) (m : MemArg)
  | store (k : Store) (m : MemArg)
  | memorySize
  | memoryGrow
  | memoryInit (segment : Nat)
  | dataDrop (segment : Nat)
  | i32Const (w : UInt32)
  | i64Const (w : UInt64)
  | f64Const (x : Binary64)
  | refNull
  | refIsNull
  | refFunc (i : Nat)
  | numeric (op : Numeric)
  deriving DecidableEq, Repr

/-- An operator of a body. `End` closes every block and the body itself. -/
inductive Operator
  | plain (p : Plain)
  | block (t : BlockType)
  | loop (t : BlockType)
  | cond (t : BlockType)
  | otherwise
  | close
  | branch (depth : Nat)
  | branchIf (depth : Nat)
  | branchTable (depths : List Nat) (fallback : Nat)
  | ret
  | call (i : Nat)
  | callIndirect (type table : Nat)
  deriving DecidableEq, Repr

end GuestHost.Wasm
