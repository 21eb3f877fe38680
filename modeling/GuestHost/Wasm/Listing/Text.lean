import GuestHost.Number.Layout
import GuestHost.Wasm.Binary.Writer

/-! Modules re-printed as text, in the order of their sections, with the names they
carry and the index of every item in a comment. -/

namespace GuestHost.Wasm.Listing.Text

/-- Characters that may stand in an identifier. -/
def isIdChar (c : Char) : Bool :=
  c.isAlphanum || "!#$%&'*+-./:<=>?@\\^_`|~".toList.contains c

/-- A byte of a string literal. -/
def stringByte (b : UInt8) : List Char :=
  if 0x20 ≤ b ∧ b < 0x7F ∧ b ≠ 0x22 ∧ b ≠ 0x5C then [Char.ofNat b.toNat]
  else ['\\', Nat.digitChar (b.toNat / 16), Nat.digitChar (b.toNat % 16)]

def bytesLiteral (bytes : List UInt8) : String :=
  String.ofList ('"' :: bytes.flatMap stringByte ++ ['"'])

def stringLiteral (s : String) : String := bytesLiteral s.toUTF8.toList

/-- A name as an identifier; a name that is none is quoted. -/
def identifier (name : String) : String :=
  if !name.isEmpty && name.toList.all isIdChar then "$" ++ name
  else "$" ++ stringLiteral name

/-- A reference to an item: its name if it has one, else its index. -/
def reference (names : NameMap) (i : Nat) : String :=
  match names.lookup i with
  | some name => identifier name
  | none => toString i

/-- The introduction of an item: its name, if any, and its index in a comment. -/
def introduction (names : NameMap) (i : Nat) : String :=
  let index := "(;" ++ toString i ++ ";)"
  match names.lookup i with
  | some name => identifier name ++ " " ++ index
  | none => index

def words (ws : List String) : String := String.intercalate " " ws

def group (ws : List String) : String := "(" ++ words ws ++ ")"

/-- Typed variables under one heading: named ones stand alone, runs of unnamed ones
share a group. -/
def typedGroups (heading : String) (names : NameMap) :
    Nat → List ValType → List ValType → List String
  | _, run, [] => if run.isEmpty then [] else [group (heading :: run.reverse.map ValType.name)]
  | i, run, t :: ts =>
    match names.lookup i with
    | none => typedGroups heading names (i + 1) (t :: run) ts
    | some name =>
      (if run.isEmpty then [] else [group (heading :: run.reverse.map ValType.name)]) ++
        group [heading, identifier name, t.name] :: typedGroups heading names (i + 1) [] ts

def results (ts : List ValType) : List String :=
  if ts.isEmpty then [] else [group ("result" :: ts.map ValType.name)]

/-- Parameters and results of a function type. -/
def signature (names : NameMap) (t : FuncType) : List String :=
  typedGroups "param" names 0 [] t.params ++ results t.results

def limits (l : Limits) : List String :=
  toString l.min :: (match l.max with | none => [] | some max => [toString max])

def globalType (t : GlobalType) : String :=
  if t.isMutable then group ["mut", t.type.name] else t.type.name

/-- Hexadecimal digits of a 52-bit fraction, without trailing zeros. -/
def fractionDigits (n : Nat) : List Char :=
  let digits := (List.range 13).map fun i => Nat.digitChar (n / Nat.pow 16 (12 - i) % 16)
  (digits.reverse.dropWhile (· == '0')).reverse

/-- A number in hexadecimal scientific notation, without its sign. -/
def hexMagnitude (x : Binary64) : String :=
  if x.isInfinite then "inf"
  else if x.isNaN then
    if x.fraction = 0x8000000000000 then "nan"
    else "nan:0x" ++ String.ofList (Nat.toDigits 16 x.fraction)
  else if x.isZero then "0x0p+0"
  else
    let (exponent, fraction) : Int × Nat :=
      if x.exponentField = 0 then
        let top := x.fraction.log2
        ((top : Int) - 1074, (x.fraction - Nat.pow 2 top) * Nat.pow 2 (52 - top))
      else (x.exponentField - 1023, x.fraction)
    let point := if x.fraction = 0 then [] else '.' :: fractionDigits fraction
    let sign := if exponent < 0 then "-" else "+"
    "0x1" ++ String.ofList point ++ "p" ++ sign ++ toString exponent.natAbs

/-- A constant, and its decimal value in a comment. -/
def number (x : Binary64) : String :=
  (if x.isNegative then "-" else "") ++ hexMagnitude x ++
    " (;=" ++ NumberLayout.plain.render x ++ ";)"

/-- The labels around an operator, innermost first; some blocks have names. -/
abbrev Labels := List (Option String)

/-- The target of a branch: the name of its block, if no inner block has the same
name, else the depth with the number of the block. -/
def target (labels : Labels) (depth : Nat) : String :=
  let plainTarget := toString depth ++ " (;@" ++ toString (labels.length - depth) ++ ";)"
  match labels[depth]? with
  | some (some name) =>
    if (labels.take depth).contains (some name) then plainTarget else identifier name
  | _ => plainTarget

/-- What is known about a function while its body is printed. -/
structure Scope where
  module : Module
  locals : NameMap := []
  labels : NameMap := []

def access (name : String) (width : Nat) (m : MemArg) : String :=
  words (name :: (if m.offset = 0 then [] else ["offset=" ++ toString m.offset]) ++
    (if m.align = width then [] else ["align=" ++ toString (Nat.pow 2 m.align)]))

def plain (s : Scope) : Plain → String
  | .unreachable => "unreachable"
  | .nop => "nop"
  | .drop => "drop"
  | .select => "select"
  | .localGet i => words ["local.get", reference s.locals i]
  | .localSet i => words ["local.set", reference s.locals i]
  | .localTee i => words ["local.tee", reference s.locals i]
  | .globalGet i => words ["global.get", reference s.module.names.globals i]
  | .globalSet i => words ["global.set", reference s.module.names.globals i]
  | .tableGet i => words ["table.get", reference s.module.names.tables i]
  | .tableSet i => words ["table.set", reference s.module.names.tables i]
  | .load k m => access k.text k.widthLog2 m
  | .store k m => access k.text k.widthLog2 m
  | .memorySize => "memory.size"
  | .memoryGrow => "memory.grow"
  | .memoryInit i => words ["memory.init", reference s.module.names.data i]
  | .dataDrop i => words ["data.drop", reference s.module.names.data i]
  | .i32Const w => words ["i32.const", toString w.toInt32.toInt]
  | .i64Const w => words ["i64.const", toString w.toInt64.toInt]
  | .f64Const x => words ["f64.const", number x]
  | .refNull => "ref.null func"
  | .refIsNull => "ref.is_null"
  | .refFunc i => words ["ref.func", reference s.module.names.funcs i]
  | .numeric op => op.signature.text

def typeUse (s : Scope) (i : Nat) : String := group ["type", reference s.module.names.types i]

/-- The type of a block, with the types behind an index spelt out. -/
def blockType (s : Scope) : BlockType → List String
  | .empty => []
  | .value t => results [t]
  | .indexed i =>
    typeUse s i :: (match s.module.types[i]? with | some t => signature [] t | none => [])

/-- The line that opens a block: its name and type, or its number in a comment. -/
def opening (s : Scope) (keyword : String) (name : Option String) (depth : Nat) (t : BlockType) :
    String :=
  match name with
  | some n => words (keyword :: identifier n :: blockType s t)
  | none => words (keyword :: blockType s t ++ [";; label = @" ++ toString depth])

def indirect (s : Scope) (type table : Nat) : String :=
  words ("call_indirect" ::
    (if table = 0 then [] else [reference s.module.names.tables table]) ++ [typeUse s type])

/-- The greatest indentation, in steps. -/
def maxIndent : Nat := 50

def indented (steps : Nat) (line : String) : String :=
  String.ofList (List.replicate (2 * min steps maxIndent) ' ') ++ line

/-- The lines of a body. `blocks` counts the blocks seen, which names are given by;
the operator that closes the body has no line. -/
def bodyLines (s : Scope) : Nat → Labels → List Operator → List String
  | _, _, [] => []
  | blocks, labels, op :: ops =>
    let depth := labels.length
    let line (l : String) := indented (depth + 2) l
    let enter (keyword : String) (t : BlockType) : List String :=
      let name := s.labels.lookup blocks
      line (opening s keyword name (depth + 1) t) ::
        bodyLines s (blocks + 1) (name :: labels) ops
    match op with
    | .plain p => line (plain s p) :: bodyLines s blocks labels ops
    | .block t => enter "block" t
    | .loop t => enter "loop" t
    | .cond t => enter "if" t
    | .otherwise => indented (depth + 1) "else" :: bodyLines s blocks labels ops
    | .close =>
      match labels with
      | [] => bodyLines s blocks [] ops
      | _ :: outer => indented (depth + 1) "end" :: bodyLines s blocks outer ops
    | .branch d => line (words ["br", target labels d]) :: bodyLines s blocks labels ops
    | .branchIf d => line (words ["br_if", target labels d]) :: bodyLines s blocks labels ops
    | .branchTable ds d =>
      line (words ("br_table" :: (ds ++ [d]).map (target labels))) ::
        bodyLines s blocks labels ops
    | .ret => line "return" :: bodyLines s blocks labels ops
    | .call i =>
      line (words ["call", reference s.module.names.funcs i]) :: bodyLines s blocks labels ops
    | .callIndirect type table => line (indirect s type table) :: bodyLines s blocks labels ops

/-- An operator of a constant expression. -/
def constant (s : Scope) : Operator → String
  | .plain p => plain s p
  | _ => ""

/-- An offset: one operator stands alone, several share a group. -/
def offset (s : Scope) (ops : List Operator) : String :=
  match ops with
  | [op] => group [constant s op]
  | ops => group ("offset" :: ops.map (constant s))

def importLine (s : Scope) (i : Import) (index : Nat) : String :=
  let names := s.module.names
  let type := match i.type with
    | .func t => group ["func", introduction names.funcs index, typeUse s t]
    | .table l => group ("table" :: introduction names.tables index :: limits l ++ ["funcref"])
    | .memory l => group ("memory" :: introduction names.memories index :: limits l)
    | .global t => group ["global", introduction names.globals index, globalType t]
  group ["import", stringLiteral i.space, stringLiteral i.name, type]

def sameKind : ImportType → ImportType → Bool
  | .func _, .func _ => true
  | .table _, .table _ => true
  | .memory _, .memory _ => true
  | .global _, .global _ => true
  | _, _ => false

/-- Imports, each numbered among those of its kind. -/
def importLines (s : Scope) (before : List Import) : List Import → List String
  | [] => []
  | i :: rest =>
    importLine s i (before.countP fun j => sameKind j.type i.type) ::
      importLines s (before ++ [i]) rest

def exportLine (s : Scope) (e : Export) : String :=
  let names := match e.kind with
    | .func => s.module.names.funcs
    | .table => s.module.names.tables
    | .memory => s.module.names.memories
    | .global => s.module.names.globals
  group ["export", stringLiteral e.name, group [e.kind.name, reference names e.index]]

def elemLine (s : Scope) (e : Elem) (i : Nat) : String :=
  let names := s.module.names
  let mode := match e.mode with
    | .active table ops =>
      let table := table.getD 0
      (if table = 0 then [] else [group ["table", reference names.tables table]]) ++ [offset s ops]
    | .passive => []
    | .declared => ["declare"]
  group ("elem" :: introduction names.elems i :: mode ++ "func" ::
    e.funcs.map (reference names.funcs))

def dataLine (s : Scope) (d : Data) (i : Nat) : String :=
  let names := s.module.names
  let mode := match d.mode with
    | .active memory ops =>
      (if memory = 0 then [] else [group ["memory", reference names.memories memory]]) ++
        [offset s ops]
    | .passive => []
  group ("data" :: introduction names.data i :: mode ++ [bytesLiteral d.bytes])

/-- The lines of one function: the last line of a group that has several is its
closing parenthesis. -/
def funcLines (m : Module) (index type : Nat) (b : Body) : List String :=
  let locals := (m.names.locals.lookup index).getD []
  let s : Scope := ⟨m, locals, (m.names.labels.lookup index).getD []⟩
  let t := (m.types[type]?).getD ⟨[], []⟩
  let head := words ("(func" :: introduction m.names.funcs index :: typeUse s type ::
    signature locals t)
  let vars := typedGroups "local" locals t.params.length [] b.localTypes
  let inner := (if vars.isEmpty then [] else [indented 2 (words vars)]) ++ bodyLines s 0 [] b.code
  if inner.isEmpty then [indented 1 (head ++ ")")]
  else indented 1 head :: inner ++ [indented 1 ")"]

/-- The lines that a section gives rise to. -/
def sectionLines (m : Module) : Section → List String
  | .types =>
    m.types.zipIdx.map fun (t, i) =>
      indented 1 (group ["type", introduction m.names.types i, group ("func" :: signature [] t)])
  | .imports => (importLines ⟨m, [], []⟩ [] m.imports).map (indented 1)
  | .funcs => []
  | .tables =>
    (m.tables.zipIdx (m.tableTypes.length - m.tables.length)).map fun (l, i) =>
      indented 1 (group ("table" :: introduction m.names.tables i :: limits l ++ ["funcref"]))
  | .memories =>
    (m.memories.zipIdx (m.memoryTypes.length - m.memories.length)).map fun (l, i) =>
      indented 1 (group ("memory" :: introduction m.names.memories i :: limits l))
  | .globals =>
    (m.globals.zipIdx m.importedGlobals.length).map fun (g, i) =>
      indented 1 (group ("global" :: introduction m.names.globals i :: globalType g.type ::
        g.init.map (constant ⟨m, [], []⟩)))
  | .exports => m.exports.map fun e => indented 1 (exportLine ⟨m, [], []⟩ e)
  | .start =>
    match m.start with
    | none => []
    | some i => [indented 1 (group ["start", reference m.names.funcs i])]
  | .elems => m.elems.zipIdx.map fun (e, i) => indented 1 (elemLine ⟨m, [], []⟩ e i)
  | .dataCount => []
  | .code =>
    ((m.funcs.zip m.bodies).zipIdx m.importedFuncs).flatMap fun ((type, b), i) =>
      funcLines m i type b
  | .data => m.data.zipIdx.map fun (d, i) => indented 1 (dataLine ⟨m, [], []⟩ d i)

/-- The lines of the custom sections that follow a section. -/
def customLines (m : Module) (last : Option Section) : List String :=
  let place := match last with
    | none => "(before first)"
    | some s => "(after " ++ s.name ++ ")"
  (m.customs.filter fun c => c.after = last).map fun c =>
    indented 1 (group ["@custom", stringLiteral c.name, place, bytesLiteral c.bytes])

/-- The module re-printed as text. -/
def module (m : Module) : String :=
  let head := match m.names.module with
    | none => "(module"
    | some name => "(module " ++ identifier name
  let lines := customLines m none ++
    Section.all.flatMap fun s => sectionLines m s ++ customLines m (some s)
  if lines.isEmpty then head ++ ")\n"
  else head ++ "\n" ++ String.join (lines.map (· ++ "\n")) ++ ")\n"

end GuestHost.Wasm.Listing.Text
