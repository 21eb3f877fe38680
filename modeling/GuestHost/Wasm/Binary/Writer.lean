import GuestHost.Wasm.Module

/-! The binary form of a module: integers in base 128, vectors with their length in
front, and one section for each kind of item that the module has. -/

namespace GuestHost.Wasm.Binary

/-- Unsigned base 128, least significant group first, in at most ten groups. -/
def unsignedGroups : Nat → Nat → List UInt8
  | 0, _ => []
  | fuel + 1, n =>
    if n < 128 then [UInt8.ofNat n]
    else UInt8.ofNat (n % 128 + 128) :: unsignedGroups fuel (n / 128)

def unsigned (n : Nat) : List UInt8 := unsignedGroups 10 n

/-- Signed base 128: the last group's top bit is the sign. -/
def signedGroups : Nat → Int → List UInt8
  | 0, _ => []
  | fuel + 1, n =>
    let low := (n % 128).toNat
    let rest := n / 128
    if (rest = 0 ∧ low < 64) ∨ (rest = -1 ∧ 64 ≤ low) then [UInt8.ofNat low]
    else UInt8.ofNat (low + 128) :: signedGroups fuel rest

def signed (n : Int) : List UInt8 := signedGroups 10 n

/-- The `width` low bytes of a natural, least significant first. -/
def littleEndian : Nat → Nat → List UInt8
  | 0, _ => []
  | width + 1, n => UInt8.ofNat (n % 256) :: littleEndian width (n / 256)

def vector {α : Type} (write : α → List UInt8) (xs : List α) : List UInt8 :=
  unsigned xs.length ++ xs.flatMap write

/-- Bytes with their number in front. -/
def sized (bytes : List UInt8) : List UInt8 := unsigned bytes.length ++ bytes

def text (s : String) : List UInt8 := sized s.toUTF8.toList

def valType (t : ValType) : List UInt8 := [t.code]

def funcType (t : FuncType) : List UInt8 :=
  0x60 :: vector valType t.params ++ vector valType t.results

def limits (l : Limits) : List UInt8 :=
  match l.max with
  | none => 0 :: unsigned l.min
  | some max => 1 :: unsigned l.min ++ unsigned max

def tableType (l : Limits) : List UInt8 := ValType.funcref.code :: limits l

def globalType (t : GlobalType) : List UInt8 :=
  [t.type.code, if t.isMutable then 1 else 0]

def blockType : BlockType → List UInt8
  | .empty => [0x40]
  | .value t => [t.code]
  | .indexed i => signed i

def memArg (m : MemArg) : List UInt8 := unsigned m.align ++ unsigned m.offset

def plain : Plain → List UInt8
  | .unreachable => [0x00]
  | .nop => [0x01]
  | .drop => [0x1A]
  | .select => [0x1B]
  | .localGet i => 0x20 :: unsigned i
  | .localSet i => 0x21 :: unsigned i
  | .localTee i => 0x22 :: unsigned i
  | .globalGet i => 0x23 :: unsigned i
  | .globalSet i => 0x24 :: unsigned i
  | .tableGet i => 0x25 :: unsigned i
  | .tableSet i => 0x26 :: unsigned i
  | .load k m => k.opcode :: memArg m
  | .store k m => k.opcode :: memArg m
  | .memorySize => [0x3F, 0]
  | .memoryGrow => [0x40, 0]
  | .memoryInit segment => 0xFC :: 8 :: unsigned segment ++ [0]
  | .dataDrop segment => 0xFC :: 9 :: unsigned segment
  | .i32Const w => 0x41 :: signed w.toInt32.toInt
  | .i64Const w => 0x42 :: signed w.toInt64.toInt
  | .f64Const x => 0x44 :: littleEndian 8 x.bits.toNat
  | .refNull => [0xD0, ValType.funcref.code]
  | .refIsNull => [0xD1]
  | .refFunc i => 0xD2 :: unsigned i
  | .numeric op => [op.signature.opcode]

def operator : Operator → List UInt8
  | .plain p => plain p
  | .block t => 0x02 :: blockType t
  | .loop t => 0x03 :: blockType t
  | .cond t => 0x04 :: blockType t
  | .otherwise => [0x05]
  | .close => [0x0B]
  | .branch d => 0x0C :: unsigned d
  | .branchIf d => 0x0D :: unsigned d
  | .branchTable ds d => 0x0E :: vector unsigned ds ++ unsigned d
  | .ret => [0x0F]
  | .call i => 0x10 :: unsigned i
  | .callIndirect type table => 0x11 :: unsigned type ++ unsigned table

/-- Operators of a constant expression, closed. -/
def expression (ops : List Operator) : List UInt8 := ops.flatMap operator ++ [0x0B]

def importItem (i : Import) : List UInt8 :=
  text i.space ++ text i.name ++ match i.type with
    | .func t => 0 :: unsigned t
    | .table l => 1 :: tableType l
    | .memory l => 2 :: limits l
    | .global t => 3 :: globalType t

def globalItem (g : Global) : List UInt8 := globalType g.type ++ expression g.init

def exportItem (e : Export) : List UInt8 := text e.name ++ e.kind.code :: unsigned e.index

def elemItem (e : Elem) : List UInt8 :=
  let funcs := vector unsigned e.funcs
  match e.mode with
  | .active none offset => 0 :: expression offset ++ funcs
  | .active (some table) offset => 2 :: unsigned table ++ expression offset ++ 0 :: funcs
  | .passive => 1 :: 0 :: funcs
  | .declared => 3 :: 0 :: funcs

def bodyItem (b : Body) : List UInt8 :=
  sized (vector (fun (n, t) => unsigned n ++ valType t) b.locals ++ b.code.flatMap operator)

def dataItem (d : Data) : List UInt8 :=
  match d.mode with
  | .active 0 offset => 0 :: expression offset ++ sized d.bytes
  | .active memory offset => 2 :: unsigned memory ++ expression offset ++ sized d.bytes
  | .passive => 1 :: sized d.bytes

/-- A section with its number and size; an empty vector has no section. -/
def sectionOf {α : Type} (s : Section) (write : α → List UInt8) (xs : List α) : List UInt8 :=
  if xs.isEmpty then [] else s.number :: sized (vector write xs)

/-- A section that holds one number, if there is one. -/
def numberSection (s : Section) : Option Nat → List UInt8
  | none => []
  | some n => s.number :: sized (unsigned n)

def nameMap (names : NameMap) : List UInt8 :=
  vector (fun (i, s) => unsigned i ++ text s) names

def indirectNameMap (names : List (Nat × NameMap)) : List UInt8 :=
  vector (fun (i, ns) => unsigned i ++ nameMap ns) names

/-- A part of the name section; parts that name nothing are left out. -/
def namePart {α : Type} (number : UInt8) (write : List α → List UInt8) (xs : List α) : List UInt8 :=
  if xs.isEmpty then [] else number :: sized (write xs)

def nameParts (n : Names) : List UInt8 :=
  (match n.module with | none => [] | some s => 0 :: sized (text s)) ++
  namePart 1 nameMap n.funcs ++ namePart 2 indirectNameMap n.locals ++
  namePart 3 indirectNameMap n.labels ++ namePart 4 nameMap n.types ++
  namePart 5 nameMap n.tables ++ namePart 6 nameMap n.memories ++
  namePart 7 nameMap n.globals ++ namePart 8 nameMap n.elems ++ namePart 9 nameMap n.data

def nameSection (n : Names) : List UInt8 :=
  let parts := nameParts n
  if parts.isEmpty then [] else 0 :: sized (text "name" ++ parts)

/-- The bytes every module begins with: a mark and the version. -/
def header : List UInt8 := [0x00, 0x61, 0x73, 0x6D, 0x01, 0x00, 0x00, 0x00]

/-- The binary form of a module, names last. Custom sections are not written. -/
def module (m : Module) : List UInt8 :=
  header ++
  sectionOf .types funcType m.types ++
  sectionOf .imports importItem m.imports ++
  sectionOf .funcs unsigned m.funcs ++
  sectionOf .tables tableType m.tables ++
  sectionOf .memories limits m.memories ++
  sectionOf .globals globalItem m.globals ++
  sectionOf .exports exportItem m.exports ++
  numberSection .start m.start ++
  sectionOf .elems elemItem m.elems ++
  numberSection .dataCount m.dataCount ++
  sectionOf .code bodyItem m.bodies ++
  sectionOf .data dataItem m.data ++
  nameSection m.names

end GuestHost.Wasm.Binary
