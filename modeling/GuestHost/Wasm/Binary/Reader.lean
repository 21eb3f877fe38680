import GuestHost.Wasm.Binary.Writer

/-! Reading a module from its binary form. A reader consumes a prefix of the bytes
or refuses; every count and size is checked against what follows it. -/

namespace GuestHost.Wasm.Binary

/-- Reads a value from the front of a byte list. -/
abbrev Reader := StateT (List UInt8) Option

namespace Reader

def fail {α : Type} : Reader α := fun _ => none

def byte : Reader UInt8
  | [] => none
  | b :: rest => some (b, rest)

/-- The first byte, left in place. -/
def peek : Reader (Option UInt8) := fun bytes => some (bytes.head?, bytes)

def ensure (p : Bool) : Reader Unit := if p then pure () else fail

/-- Base 128 groups, least significant first, at most `fuel` of them. The value and
the number of groups read. -/
def groups : Nat → Reader (Nat × Nat)
  | 0 => fail
  | fuel + 1 => do
    let b ← byte
    if b < 128 then return (b.toNat, 1)
    else
      let (n, k) ← groups fuel
      return (n * 128 + (b.toNat - 128), k + 1)

/-- An unsigned integer of 32 bits. -/
def u32 : Reader Nat := do
  let (n, _) ← groups 5
  ensure (n < UInt32.size)
  return n

/-- A signed integer of `bits` bits: the last group's top bit is the sign. -/
def signedOf (bits : Nat) : Reader Int := do
  let (n, k) ← groups ((bits + 6) / 7)
  let span := Nat.pow 2 (7 * k)
  let z : Int := if 2 * n < span then n else (n : Int) - span
  let bound : Int := Nat.pow 2 (bits - 1)
  ensure (decide (-bound ≤ z) && decide (z < bound))
  return z

/-- A number of fixed width, least significant byte first. -/
def fixed : Nat → Reader Nat
  | 0 => pure 0
  | width + 1 => do
    let b ← byte
    let n ← fixed width
    return b.toNat + 256 * n

/-- The next `n` bytes. -/
def take (n : Nat) : Reader (List UInt8) := fun bytes =>
  let front := bytes.take n
  if front.length = n then some (front, bytes.drop n) else none

/-- Runs a reader that must consume all of its bytes. -/
def whole {α : Type} (r : Reader α) (bytes : List UInt8) : Option α :=
  match r bytes with
  | some (a, []) => some a
  | _ => none

/-- `n` values, one after the other. -/
def times {α : Type} (r : Reader α) : Nat → Reader (List α)
  | 0 => pure []
  | n + 1 => do
    let a ← r
    let rest ← times r n
    return a :: rest

def vector {α : Type} (r : Reader α) : Reader (List α) := do
  let n ← u32
  times r n

/-- Bytes with their number in front. -/
def sized : Reader (List UInt8) := do
  let n ← u32
  take n

/-- A text; it must be well formed. -/
def text : Reader String := do
  let bytes ← sized
  match String.fromUTF8? bytes.toByteArray with
  | some s => return s
  | none => fail

def valType : Reader ValType := do
  let b ← byte
  match ValType.ofCode? b with
  | some t => return t
  | none => fail

def funcType : Reader FuncType := do
  let b ← byte
  ensure (b == 0x60)
  let params ← vector valType
  let results ← vector valType
  return ⟨params, results⟩

def limits : Reader Limits := do
  let flag ← byte
  if flag == 0 then
    let min ← u32
    return ⟨min, none⟩
  else if flag == 1 then
    let min ← u32
    let max ← u32
    return ⟨min, some max⟩
  else fail

def tableType : Reader Limits := do
  let b ← byte
  ensure (b == ValType.funcref.code)
  limits

def globalType : Reader GlobalType := do
  let t ← valType
  let b ← byte
  ensure (b ≤ 1)
  return ⟨t, b == 1⟩

def blockType : Reader BlockType := do
  match ← peek with
  | none => fail
  | some b =>
    if b == 0x40 then
      let _ ← byte
      return .empty
    else
      match ValType.ofCode? b with
      | some t =>
        let _ ← byte
        return .value t
      | none =>
        let n ← signedOf 33
        ensure (decide (0 ≤ n))
        return .indexed n.toNat

def memArg : Reader MemArg := do
  let align ← u32
  ensure (align < 32)
  let offset ← u32
  return ⟨align, offset⟩

/-- A zero byte, where the format keeps room for an index. -/
def zero : Reader Unit := do
  let b ← byte
  ensure (b == 0)

/-- Operators that an opcode alone selects from a family. -/
def family (b : UInt8) : Reader Plain := do
  match Load.all.find? (fun k => k.opcode == b) with
  | some k => return .load k (← memArg)
  | none =>
    match Store.all.find? (fun k => k.opcode == b) with
    | some k => return .store k (← memArg)
    | none =>
      match Numeric.all.find? (fun op => op.signature.opcode == b) with
      | some op => return .numeric op
      | none => fail

def plain (b : UInt8) : Reader Plain := do
  match b with
  | 0x00 => return .unreachable
  | 0x01 => return .nop
  | 0x1A => return .drop
  | 0x1B => return .select
  | 0x20 => return .localGet (← u32)
  | 0x21 => return .localSet (← u32)
  | 0x22 => return .localTee (← u32)
  | 0x23 => return .globalGet (← u32)
  | 0x24 => return .globalSet (← u32)
  | 0x25 => return .tableGet (← u32)
  | 0x26 => return .tableSet (← u32)
  | 0x3F => zero; return .memorySize
  | 0x40 => zero; return .memoryGrow
  | 0x41 => return .i32Const (UInt32.ofInt (← signedOf 32))
  | 0x42 => return .i64Const (UInt64.ofInt (← signedOf 64))
  | 0x44 => return .f64Const ⟨UInt64.ofNat (← fixed 8)⟩
  | 0xD0 => do
    let t ← valType
    ensure (t == .funcref)
    return .refNull
  | 0xD1 => return .refIsNull
  | 0xD2 => return .refFunc (← u32)
  | 0xFC => do
    let n ← u32
    let segment ← u32
    if n = 8 then zero; return .memoryInit segment
    else if n = 9 then return .dataDrop segment
    else fail
  | b => family b

def operator : Reader Operator := do
  let b ← byte
  match b with
  | 0x02 => return .block (← blockType)
  | 0x03 => return .loop (← blockType)
  | 0x04 => return .cond (← blockType)
  | 0x05 => return .otherwise
  | 0x0B => return .close
  | 0x0C => return .branch (← u32)
  | 0x0D => return .branchIf (← u32)
  | 0x0E => do
    let ds ← vector u32
    return .branchTable ds (← u32)
  | 0x0F => return .ret
  | 0x10 => return .call (← u32)
  | 0x11 => do
    let type ← u32
    return .callIndirect type (← u32)
  | b => return .plain (← plain b)

/-- Operators up to the first that closes; that one is consumed and not returned. -/
def expressionFrom : Nat → Reader (List Operator)
  | 0 => fail
  | fuel + 1 => do
    let op ← operator
    if op = .close then return []
    else
      let rest ← expressionFrom fuel
      return op :: rest

def expression : Reader (List Operator) := fun bytes => expressionFrom bytes.length bytes

/-- Operators up to the end of the bytes. -/
def operatorsFrom : Nat → Reader (List Operator)
  | 0 => fun bytes => if bytes.isEmpty then some ([], []) else none
  | fuel + 1 => fun bytes =>
    match bytes with
    | [] => some ([], [])
    | bytes => (do
        let op ← operator
        let rest ← operatorsFrom fuel
        return op :: rest) bytes

def importItem : Reader Import := do
  let space ← text
  let name ← text
  let type : ImportType ← match ← byte with
    | 0 => .func <$> u32
    | 1 => .table <$> tableType
    | 2 => .memory <$> limits
    | 3 => .global <$> globalType
    | _ => fail
  return ⟨space, name, type⟩

def globalItem : Reader Global := do
  let type ← globalType
  let init ← expression
  return ⟨type, init⟩

def externKind : Reader ExternKind := do
  let b ← byte
  match ExternKind.all.find? (fun k => k.code == b) with
  | some k => return k
  | none => fail

def exportItem : Reader Export := do
  let name ← text
  let kind ← externKind
  let index ← u32
  return ⟨name, kind, index⟩

def elemItem : Reader Elem := do
  match ← byte with
  | 0 => do
    let offset ← expression
    return ⟨.active none offset, ← vector u32⟩
  | 1 => zero; return ⟨.passive, ← vector u32⟩
  | 2 => do
    let table ← u32
    let offset ← expression
    zero
    return ⟨.active (some table) offset, ← vector u32⟩
  | 3 => zero; return ⟨.declared, ← vector u32⟩
  | _ => fail

def localRun : Reader (Nat × ValType) := do
  let n ← u32
  let t ← valType
  return (n, t)

def bodyItem : Reader Body := do
  let bytes ← sized
  let contents : Reader Body := do
    let locals ← vector localRun
    let code ← fun rest => operatorsFrom rest.length rest
    return ⟨locals, code⟩
  match whole contents bytes with
  | some b => return b
  | none => fail

def dataItem : Reader Data := do
  match ← byte with
  | 0 => do
    let offset ← expression
    return ⟨.active 0 offset, ← sized⟩
  | 1 => return ⟨.passive, ← sized⟩
  | 2 => do
    let memory ← u32
    let offset ← expression
    return ⟨.active memory offset, ← sized⟩
  | _ => fail

/-- Names by index, up to the end of the bytes. -/
def nameMap : Reader NameMap :=
  vector do
    let i ← u32
    let s ← text
    return (i, s)

def indirectNameMap : Reader (List (Nat × NameMap)) :=
  vector do
    let i ← u32
    let names ← nameMap
    return (i, names)

/-- Adds one part of the name section to the names; unknown parts are passed over. -/
def addNamePart (n : Names) (number : UInt8) (bytes : List UInt8) : Option Names :=
  match number with
  | 0 => (whole text bytes).map fun s => { n with module := some s }
  | 1 => (whole nameMap bytes).map fun x => { n with funcs := x }
  | 2 => (whole indirectNameMap bytes).map fun x => { n with locals := x }
  | 3 => (whole indirectNameMap bytes).map fun x => { n with labels := x }
  | 4 => (whole nameMap bytes).map fun x => { n with types := x }
  | 5 => (whole nameMap bytes).map fun x => { n with tables := x }
  | 6 => (whole nameMap bytes).map fun x => { n with memories := x }
  | 7 => (whole nameMap bytes).map fun x => { n with globals := x }
  | 8 => (whole nameMap bytes).map fun x => { n with elems := x }
  | 9 => (whole nameMap bytes).map fun x => { n with data := x }
  | _ => some n

/-- The names in the parts of a name section. Names are no part of a module's
meaning: what cannot be read ends the reading and keeps the names before it. -/
def nameParts : Nat → Names → List UInt8 → Names
  | 0, n, _ => n
  | fuel + 1, n, bytes =>
    match (do let number ← byte; let part ← sized; return (number, part) : Reader _) bytes with
    | none => n
    | some ((number, part), rest) =>
      match addNamePart n number part with
      | none => n
      | some n => nameParts fuel n rest

/-- Reads the contents of one section into the module. -/
def sectionContents (m : Module) (s : Section) (bytes : List UInt8) : Option Module :=
  match s with
  | .types => (whole (vector funcType) bytes).map fun x => { m with types := x }
  | .imports => (whole (vector importItem) bytes).map fun x => { m with imports := x }
  | .funcs => (whole (vector u32) bytes).map fun x => { m with funcs := x }
  | .tables => (whole (vector tableType) bytes).map fun x => { m with tables := x }
  | .memories => (whole (vector limits) bytes).map fun x => { m with memories := x }
  | .globals => (whole (vector globalItem) bytes).map fun x => { m with globals := x }
  | .exports => (whole (vector exportItem) bytes).map fun x => { m with exports := x }
  | .start => (whole u32 bytes).map fun x => { m with start := some x }
  | .elems => (whole (vector elemItem) bytes).map fun x => { m with elems := x }
  | .dataCount => (whole u32 bytes).map fun x => { m with dataCount := some x }
  | .code => (whole (vector bodyItem) bytes).map fun x => { m with bodies := x }
  | .data => (whole (vector dataItem) bytes).map fun x => { m with data := x }

/-- Reads a custom section: names are kept apart from other contents. -/
def customSection (m : Module) (last : Option Section) (bytes : List UInt8) : Option Module :=
  match text bytes with
  | none => none
  | some (name, contents) =>
    if name = "name" then some { m with names := nameParts contents.length m.names contents }
    else some { m with customs := m.customs ++ [⟨name, contents, last⟩] }

/-- Reads the remaining sections, which keep their order; `last` is the last one
read that was not a custom section. -/
def sections : Nat → Module → Option Section → List UInt8 → Option Module
  | _, m, _, [] => some m
  | 0, _, _, _ => none
  | fuel + 1, m, last, bytes =>
    match (do return (← byte, ← sized) : Reader (UInt8 × List UInt8)) bytes with
    | none => none
    | some ((number, contents), rest) =>
      if number = 0 then
        (customSection m last contents).bind fun m => sections fuel m last rest
      else
        match Section.all.find? (fun s => s.number == number) with
        | none => none
        | some s =>
          if (last.map Section.place).getD 0 < s.place then
            (sectionContents m s contents).bind fun m => sections fuel m (some s) rest
          else none

end Reader

/-- The module that a byte list is the binary form of. Every declared function has a
body, and a stated number of data segments is the true one. -/
def readModule (bytes : List UInt8) : Option Module :=
  match bytes.drop 8 with
  | rest =>
    if bytes.take 8 ≠ header then none
    else
      (Reader.sections rest.length {} none rest).filter fun m =>
        m.funcs.length == m.bodies.length &&
          match m.dataCount with
          | none => true
          | some n => n == m.data.length

end GuestHost.Wasm.Binary
