import GuestHost.Wasm.Module

/-! Operator listings: each function body under the index of its function, one
operator a line, the closing ones included. A listing is made from the parts of a module as a
parser hands them out, whatever the operators are. -/

namespace GuestHost.Wasm.Listing

/-- A record: a name and fields in braces. -/
def record (name : String) (fields : List (String × String)) : String :=
  name ++ " \x7b " ++ String.intercalate ", " (fields.map fun (f, v) => f ++ ": " ++ v) ++ " \x7d"

/-- A record whose fields are numbers. -/
def numbers (name : String) (fields : List (String × Nat)) : String :=
  record name (fields.map fun (f, n) => (f, toString n))

def valType : ValType → String
  | .i32 => "I32"
  | .i64 => "I64"
  | .f32 => "F32"
  | .f64 => "F64"
  | .funcref => "Ref(funcref)"

def blockType : BlockType → String
  | .empty => "Empty"
  | .value t => "Type(" ++ valType t ++ ")"
  | .indexed i => "FuncType(" ++ toString i ++ ")"

/-- A memory access: its alignment beside the greatest one that makes sense. -/
def access (name : String) (width : Nat) (m : MemArg) : String :=
  record name [("memarg", numbers "MemArg"
    [("align", m.align), ("max_align", width), ("offset", m.offset), ("memory", 0)])]

def plain : Plain → String
  | .unreachable => "Unreachable"
  | .nop => "Nop"
  | .drop => "Drop"
  | .select => "Select"
  | .localGet i => numbers "LocalGet" [("local_index", i)]
  | .localSet i => numbers "LocalSet" [("local_index", i)]
  | .localTee i => numbers "LocalTee" [("local_index", i)]
  | .globalGet i => numbers "GlobalGet" [("global_index", i)]
  | .globalSet i => numbers "GlobalSet" [("global_index", i)]
  | .tableGet i => numbers "TableGet" [("table", i)]
  | .tableSet i => numbers "TableSet" [("table", i)]
  | .load k m => access k.label k.widthLog2 m
  | .store k m => access k.label k.widthLog2 m
  | .memorySize => numbers "MemorySize" [("mem", 0)]
  | .memoryGrow => numbers "MemoryGrow" [("mem", 0)]
  | .memoryInit i => numbers "MemoryInit" [("data_index", i), ("mem", 0)]
  | .dataDrop i => numbers "DataDrop" [("data_index", i)]
  | .i32Const w => record "I32Const" [("value", toString w.toInt32.toInt)]
  | .i64Const w => record "I64Const" [("value", toString w.toInt64.toInt)]
  | .f64Const x => record "F64Const" [("value", "Ieee64(" ++ toString x.bits.toNat ++ ")")]
  | .refNull => record "RefNull" [("hty", record "Abstract" [("shared", "false"), ("ty", "Func")])]
  | .refIsNull => "RefIsNull"
  | .refFunc i => numbers "RefFunc" [("function_index", i)]
  | .numeric op => op.signature.label

def operator : Operator → String
  | .plain p => plain p
  | .block t => record "Block" [("blockty", blockType t)]
  | .loop t => record "Loop" [("blockty", blockType t)]
  | .cond t => record "If" [("blockty", blockType t)]
  | .otherwise => "Else"
  | .close => "End"
  | .branch d => numbers "Br" [("relative_depth", d)]
  | .branchIf d => numbers "BrIf" [("relative_depth", d)]
  | .branchTable ds d =>
    record "BrTable" [("targets", record "BrTable"
      [("count", toString ds.length), ("default", toString d),
       ("targets", "[" ++ String.intercalate ", " (ds.map toString) ++ "]")])]
  | .ret => "Return"
  | .call i => numbers "Call" [("function_index", i)]
  | .callIndirect type table =>
    numbers "CallIndirect" [("type_index", type), ("table_index", table)]

/-! ## Parts of a module -/

/-- What is imported. -/
inductive ImportKind
  | func
  | table
  | memory
  | global
  | tag
  deriving DecidableEq, Repr

/-- A part of a module. In place of what cannot be read there is nothing. Of the parts that are
not listed it does not matter what they hold. -/
inductive Part (ω : Type)
  | imports (items : List (Option ImportKind))
  | body (ops : Option (List (Option ω)))
  | other

/-- The text so far and the index of the next function. -/
structure Progress where
  text : String := ""
  next : UInt32 := 0

namespace Progress

variable {ω : Type}

/-- Counts the functions among imports. -/
def imports (p : Progress) (items : List (Option ImportKind)) : Option Progress :=
  items.foldlM (fun p item => item.map fun kind =>
    if kind = .func then { p with next := p.next + 1 } else p) p

/-- Lists the body of the next function, given how operators are written. -/
def body (line : ω → String) (p : Progress) (ops : List (Option ω)) : Option Progress := do
  let text ← ops.foldlM (fun text op => op.map fun op => text ++ "  " ++ line op ++ "\n")
    (p.text ++ "func[" ++ toString p.next.toNat ++ "]:\n")
  some ⟨text, p.next + 1⟩

def part (line : ω → String) (p : Progress) : Part ω → Option Progress
  | .imports items => p.imports items
  | .body ops => ops.bind (p.body line)
  | .other => some p

end Progress

/-- The operator listing of a module in parts. There is none if anything cannot be read. -/
def stack {ω : Type} (line : ω → String) (parts : List (Option (Part ω))) : Option String :=
  (parts.foldlM (fun p part => Option.bind part (p.part line)) {}).map Progress.text

def ImportKind.ofType : ImportType → ImportKind
  | .func _ => .func
  | .table _ => .table
  | .memory _ => .memory
  | .global _ => .global

/-- The parts of a module that are listed, in the order of its binary form. -/
def parts (m : Module) : List (Option (Part Operator)) :=
  some (.imports (m.imports.map fun i => some (.ofType i.type))) ::
    m.bodies.map fun b => some (.body (some (b.code.map some)))

end GuestHost.Wasm.Listing
