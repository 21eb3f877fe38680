/-! Types of module items: values, functions, limits, globals and blocks. -/

namespace GuestHost.Wasm

inductive ValType
  | i32
  | i64
  | f32
  | f64
  /-- A reference to a function, or null. -/
  | funcref
  deriving DecidableEq, Repr

namespace ValType

/-- The name in module text. -/
def name : ValType → String
  | i32 => "i32"
  | i64 => "i64"
  | f32 => "f32"
  | f64 => "f64"
  | funcref => "funcref"

/-- The long name, which spells out what a reference may be. -/
def longName : ValType → String
  | funcref => "(ref null func)"
  | t => t.name

/-- The byte in a module's binary form. -/
def code : ValType → UInt8
  | i32 => 0x7F
  | i64 => 0x7E
  | f32 => 0x7D
  | f64 => 0x7C
  | funcref => 0x70

def all : List ValType := [i32, i64, f32, f64, funcref]

def ofName? (s : String) : Option ValType := all.find? (fun t => t.name == s)

def ofCode? (b : UInt8) : Option ValType := all.find? (fun t => t.code == b)

end ValType

structure FuncType where
  params : List ValType
  results : List ValType
  deriving DecidableEq, Repr

/-- A size with its bounds: pages of a memory or entries of a table. -/
structure Limits where
  min : Nat
  max : Option Nat
  deriving DecidableEq, Repr

structure GlobalType where
  type : ValType
  isMutable : Bool
  deriving DecidableEq, Repr

/-- The type of a block: no values, one result, or a function type by index. -/
inductive BlockType
  | empty
  | value (t : ValType)
  | indexed (i : Nat)
  deriving DecidableEq, Repr

/-- The function type a block type stands for. -/
def BlockType.resolve? (types : List FuncType) : BlockType → Option FuncType
  | empty => some ⟨[], []⟩
  | value t => some ⟨[], [t]⟩
  | indexed i => types[i]?

/-- The number of bytes in a page of memory. -/
def pageSize : Nat := 65536

/-- The number of pages that 32-bit addresses reach. -/
def maxPages : Nat := 65536

/-- The number of entries a table may have at first. -/
def maxTable : Nat := 10000000

/-- The number of functions a module may have, the imported ones included. -/
def maxFuncs : Nat := 1000000

end GuestHost.Wasm
