import GuestHost.Wasm.Module
import GuestHost.Wasm.Text.Literal

/-! Instructions in module text. Folded and flat forms give one flat sequence of
operators; names become indices, and types written in place join the module's types. -/

namespace GuestHost.Wasm.Text

/-- Indices by name, for one kind of item. -/
abbrev Ids := List (String × Nat)

/-- The names in scope. -/
structure Env where
  types : Ids := []
  funcs : Ids := []
  tables : Ids := []
  memories : Ids := []
  globals : Ids := []
  elems : Ids := []
  data : Ids := []
  locals : Ids := []

/-- The types of the module so far, and the blocks of the function so far. -/
structure Pending where
  types : List FuncType := []
  blocks : Nat := 0
  blockNames : NameMap := []

/-- Produces part of a module, or refuses the text. -/
abbrev Gen := StateT Pending Option

def refuse {α : Type} : Gen α := fun _ => none

def ensure (p : Bool) : Gen Unit := if p then pure () else refuse

def lift {α : Type} (a : Option α) : Gen α :=
  match a with
  | some a => pure a
  | none => refuse

/-- A word that names something. -/
def isId (word : String) : Bool := word.startsWith "$" && 1 < word.length

/-- The index a word stands for: by name, or as a number. -/
def Ids.resolve? (ids : Ids) (word : String) : Option Nat :=
  if word.startsWith "$" then ids.lookup word else index? word

/-- A leading identifier, if there is one, and the rest. -/
def splitId (ts : List Tree) : Option String × List Tree :=
  match ts with
  | .word w :: rest => if isId w then (some w, rest) else (none, ts)
  | _ => (none, ts)

/-- An identifier without its mark, as listings show it. -/
def bareName (id : String) : String := String.ofList (id.toList.drop 1)

def valType? : Tree → Option ValType
  | .word w => ValType.ofName? w
  | .list [.word "ref", .word "null", .word "func"] => some .funcref
  | _ => none

/-- A function type as it is used: by index, in place, or both. -/
structure TypeUse where
  index : Option Nat := none
  params : List (Option String × ValType) := []
  results : List ValType := []

/-- The type written in place. -/
def TypeUse.inline (u : TypeUse) : FuncType := ⟨u.params.map (·.2), u.results⟩

/-- Parameters or locals of one group: one with a name, or any number without. -/
def typedWords? (ts : List Tree) : Option (List (Option String × ValType)) :=
  match splitId ts with
  | (some id, [t]) => (valType? t).map fun t => [(some id, t)]
  | (some _, _) => none
  | (none, ts) => ts.mapM fun t => (valType? t).map fun t => (none, t)

/-- Groups of one heading at the front, and what follows them. -/
def groups? (heading : String) :
    List Tree → Option (List (Option String × ValType) × List Tree)
  | .list (.word w :: ts) :: rest =>
    if w = heading then
      match typedWords? ts, groups? heading rest with
      | some vs, some (more, rest) => some (vs ++ more, rest)
      | _, _ => none
    else some ([], .list (.word w :: ts) :: rest)
  | rest => some ([], rest)

/-- A type use at the front, and what follows it. -/
def typeUse? (types : Ids) (ts : List Tree) : Option (TypeUse × List Tree) :=
  let (index, ts) : Option (Option Nat) × List Tree :=
    match ts with
    | .list [.word "type", .word w] :: rest => (some (types.resolve? w), rest)
    | ts => (none, ts)
  match index with
  | some none => none
  | index =>
    match groups? "param" ts with
    | none => none
    | some (params, ts) =>
      match groups? "result" ts with
      | none => none
      | some (results, ts) =>
        if results.all (·.1.isNone) then
          some (⟨index.join, params, results.map (·.2)⟩, ts)
        else none

/-- The index of a type, which joins the types if it is not there yet. -/
def typeIndex (t : FuncType) : Gen Nat := do
  let p ← get
  match p.types.findIdx? (· == t) with
  | some i => return i
  | none =>
    set { p with types := p.types ++ [t] }
    return p.types.length

/-- The index a type use stands for. A type given twice must be the same. -/
def TypeUse.resolve (u : TypeUse) : Gen Nat := do
  match u.index with
  | none => typeIndex u.inline
  | some i =>
    match (← get).types[i]? with
    | none => refuse
    | some t =>
      ensure ((u.params.isEmpty && u.results.isEmpty) || t == u.inline)
      return i

/-- A block type from a type use: only what has parameters, several results or an
index needs a function type. -/
def TypeUse.block (u : TypeUse) : Gen BlockType := do
  match u.index, u.params, u.results with
  | none, [], [] => return .empty
  | none, [], [t] => return .value t
  | _, _, _ => return .indexed (← u.resolve)

/-- Counts a block and keeps its name. -/
def openBlock (label : Option String) : Gen Unit :=
  modify fun p =>
    { p with
      blocks := p.blocks + 1
      blockNames := match label with
        | none => p.blockNames
        | some id => p.blockNames ++ [(p.blocks, bareName id)] }

/-- The labels around a place, innermost first. -/
abbrev Labels := List (Option String)

/-- The depth a word stands for as a branch target. -/
def Labels.resolve? (labels : Labels) (word : String) : Option Nat :=
  if word.startsWith "$" then labels.findIdx? (· == some word) else index? word

/-- An optional index in front; zero if there is none. -/
def optionalIndex (ids : Ids) (ts : List Tree) : Option (Nat × List Tree) :=
  match ts with
  | .word w :: rest =>
    if w.startsWith "$" || (w.toList.head?.any Char.isDigit) then
      (ids.resolve? w).map fun i => (i, rest)
    else some (0, ts)
  | _ => some (0, ts)

/-- A setting such as `offset=4` in front, and what follows. -/
def setting? (name : String) (ts : List Tree) : Option Nat × List Tree :=
  match ts with
  | .word w :: rest =>
    if w.startsWith name then (natural? (w.toList.drop name.length), rest) else (none, ts)
  | _ => (none, ts)

/-- The binary logarithm of a power of two. -/
def powerOfTwo? (n : Nat) : Option Nat :=
  if n = Nat.pow 2 n.log2 ∧ n ≠ 0 then some n.log2 else none

/-- Offset and alignment in front; they default to zero and the width. -/
def memArg? (width : Nat) (ts : List Tree) : Option (MemArg × List Tree) :=
  let hasSetting (name : String) (ts : List Tree) : Bool :=
    match ts with
    | .word w :: _ => w.startsWith name
    | _ => false
  let offset : Option (Nat × List Tree) :=
    if hasSetting "offset=" ts then
      match setting? "offset=" ts with
      | (some n, rest) => if n < UInt32.size then some (n, rest) else none
      | (none, _) => none
    else some (0, ts)
  offset.bind fun (offset, ts) =>
    if hasSetting "align=" ts then
      match setting? "align=" ts with
      | (some n, rest) => (powerOfTwo? n).map fun a => (⟨a, offset⟩, rest)
      | (none, _) => none
    else some (⟨width, offset⟩, ts)

/-- Words in front that are branch targets. -/
def targets? (labels : Labels) : List Tree → Option (List Nat × List Tree)
  | .word w :: rest =>
    if w.startsWith "$" || (w.toList.head?.any Char.isDigit) then
      match labels.resolve? w, targets? labels rest with
      | some d, some (ds, rest) => some (d :: ds, rest)
      | _, _ => none
    else some ([], .word w :: rest)
  | rest => some ([], rest)

/-- An operator whose one immediate is an index. -/
def indexed? (ids : Ids) (make : Nat → Operator) : List Tree → Option (Gen Operator × List Tree)
  | .word w :: rest => (ids.resolve? w).map fun i => (pure (make i), rest)
  | _ => none

/-- An operator of the families that differ in their keyword alone. -/
def family? (keyword : String) (ts : List Tree) : Option (Gen Operator × List Tree) :=
  match Load.all.find? (fun k => k.text == keyword) with
  | some k => (memArg? k.widthLog2 ts).map fun (m, ts) => (pure (.plain (.load k m)), ts)
  | none =>
    match Store.all.find? (fun k => k.text == keyword) with
    | some k => (memArg? k.widthLog2 ts).map fun (m, ts) => (pure (.plain (.store k m)), ts)
    | none =>
      match Numeric.all.find? (fun op => op.signature.text == keyword) with
      | some op => some (pure (.plain (.numeric op)), ts)
      | none => none

/-- Reads the immediates of an operator that opens or closes no block. Types join the
module only when the operator is produced, after its folded operands. -/
def operator? (env : Env) (labels : Labels) (keyword : String) (ts : List Tree) :
    Option (Gen Operator × List Tree) :=
  let bare (p : Plain) : Option (Gen Operator × List Tree) := some (pure (.plain p), ts)
  match keyword with
  | "unreachable" => bare .unreachable
  | "nop" => bare .nop
  | "drop" => bare .drop
  | "select" => bare .select
  | "return" => some (pure .ret, ts)
  | "local.get" => indexed? env.locals (fun i => .plain (.localGet i)) ts
  | "local.set" => indexed? env.locals (fun i => .plain (.localSet i)) ts
  | "local.tee" => indexed? env.locals (fun i => .plain (.localTee i)) ts
  | "global.get" => indexed? env.globals (fun i => .plain (.globalGet i)) ts
  | "global.set" => indexed? env.globals (fun i => .plain (.globalSet i)) ts
  | "table.get" =>
    (optionalIndex env.tables ts).map fun (i, ts) => (pure (.plain (.tableGet i)), ts)
  | "table.set" =>
    (optionalIndex env.tables ts).map fun (i, ts) => (pure (.plain (.tableSet i)), ts)
  | "memory.size" =>
    (optionalIndex env.memories ts).bind fun (i, ts) =>
      if i = 0 then some (pure (.plain .memorySize), ts) else none
  | "memory.grow" =>
    (optionalIndex env.memories ts).bind fun (i, ts) =>
      if i = 0 then some (pure (.plain .memoryGrow), ts) else none
  | "memory.init" => indexed? env.data (fun i => .plain (.memoryInit i)) ts
  | "data.drop" => indexed? env.data (fun i => .plain (.dataDrop i)) ts
  | "ref.null" =>
    match ts with
    | .word "func" :: ts => some (pure (.plain .refNull), ts)
    | _ => none
  | "ref.is_null" => bare .refIsNull
  | "ref.func" => indexed? env.funcs (fun i => .plain (.refFunc i)) ts
  | "call" => indexed? env.funcs .call ts
  | "call_indirect" =>
    (optionalIndex env.tables ts).bind fun (table, ts) =>
      (typeUse? env.types ts).map fun (u, ts) =>
        ((do return .callIndirect (← u.resolve) table), ts)
  | "br" =>
    match ts with
    | .word w :: ts => (labels.resolve? w).map fun d => (pure (.branch d), ts)
    | _ => none
  | "br_if" =>
    match ts with
    | .word w :: ts => (labels.resolve? w).map fun d => (pure (.branchIf d), ts)
    | _ => none
  | "br_table" =>
    match targets? labels ts with
    | some (ds, ts) =>
      match ds.reverse with
      | d :: others => some (pure (.branchTable others.reverse d), ts)
      | [] => none
    | none => none
  | "i32.const" =>
    match ts with
    | .word w :: ts =>
      (integer? 32 w).map fun n => (pure (.plain (.i32Const (UInt32.ofNat n))), ts)
    | _ => none
  | "i64.const" =>
    match ts with
    | .word w :: ts =>
      (integer? 64 w).map fun n => (pure (.plain (.i64Const (UInt64.ofNat n))), ts)
    | _ => none
  | "f64.const" =>
    match ts with
    | .word w :: ts => (float? w).map fun x => (pure (.plain (.f64Const x)), ts)
    | _ => none
  | keyword => family? keyword ts

/-- The operator that a keyword opens a block with. -/
def opener? : String → Option (BlockType → Operator)
  | "block" => some .block
  | "loop" => some .loop
  | "if" => some .cond
  | _ => none

/-- A label and block type in front of the contents of a block. -/
def blockHead (env : Env) (ts : List Tree) :
    Gen (Option String × TypeUse × List Tree) := do
  let (label, ts) := splitId ts
  let (u, ts) ← lift (typeUse? env.types ts)
  return (label, u, ts)

/-- A label repeated at the end or in the middle of a block must be its own. -/
def repeatedLabel (label : Option String) (ts : List Tree) : Gen (List Tree) := do
  match splitId ts with
  | (none, ts) => return ts
  | (some id, ts) =>
    ensure (label == some id)
    return ts

def isList : Tree → Bool
  | .list _ => true
  | _ => false

def isThen : Tree → Bool
  | .list (.word "then" :: _) => true
  | _ => false

mutual

/-- The operators of a sequence, and the labels open behind it. -/
def instructions : Nat → Env → Labels → List Tree → Gen (List Operator × Labels)
  | 0, _, _, _ => refuse
  | _ + 1, _, labels, [] => return ([], labels)
  | fuel + 1, env, labels, .list (.word keyword :: ts) :: rest => do
    let ops ← folded fuel env labels keyword ts
    let (more, labels) ← instructions fuel env labels rest
    return (ops ++ more, labels)
  | fuel + 1, env, labels, .word keyword :: rest => do
    match opener? keyword with
    | some make =>
      let (label, u, rest) ← blockHead env rest
      openBlock label
      let t ← u.block
      let (more, labels) ← instructions fuel env (label :: labels) rest
      return (make t :: more, labels)
    | none =>
      match keyword, labels with
      | "else", label :: _ =>
        let rest ← repeatedLabel label rest
        let (more, labels) ← instructions fuel env labels rest
        return (.otherwise :: more, labels)
      | "end", label :: outer =>
        let rest ← repeatedLabel label rest
        let (more, labels) ← instructions fuel env outer rest
        return (.close :: more, labels)
      | _, _ =>
        let (op, rest) ← lift (operator? env labels keyword rest)
        let op ← op
        let (more, labels) ← instructions fuel env labels rest
        return (op :: more, labels)
  | _ + 1, _, _, _ => refuse

/-- The operators of a sequence that leaves no block open. -/
def closed : Nat → Env → Labels → List Tree → Gen (List Operator)
  | 0, _, _, _ => refuse
  | fuel + 1, env, labels, ts => do
    let (ops, after) ← instructions fuel env labels ts
    ensure (after.length == labels.length)
    return ops

/-- The operators of a folded instruction: operands first. -/
def folded : Nat → Env → Labels → String → List Tree → Gen (List Operator)
  | 0, _, _, _, _ => refuse
  | fuel + 1, env, labels, keyword, ts => do
    match keyword with
    | "if" =>
      let (label, u, ts) ← blockHead env ts
      let conditions := ts.takeWhile (fun t => !isThen t)
      ensure (conditions.all isList)
      let before ← closed fuel env labels conditions
      openBlock label
      let t ← u.block
      match ts.dropWhile (fun t => !isThen t) with
      | [.list (.word _ :: yes)] =>
        let yes ← closed fuel env (label :: labels) yes
        return before ++ .cond t :: yes ++ [.close]
      | [.list (.word _ :: yes), .list (.word "else" :: no)] =>
        let yes ← closed fuel env (label :: labels) yes
        let no ← closed fuel env (label :: labels) no
        return before ++ .cond t :: yes ++ .otherwise :: no ++ [.close]
      | _ => refuse
    | keyword =>
      match opener? keyword with
      | some make =>
        let (label, u, ts) ← blockHead env ts
        openBlock label
        let t ← u.block
        let ops ← closed fuel env (label :: labels) ts
        return make t :: ops ++ [.close]
      | none =>
        let (op, operands) ← lift (operator? env labels keyword ts)
        ensure (operands.all isList)
        let before ← closed fuel env labels operands
        let op ← op
        return before ++ [op]

end

end GuestHost.Wasm.Text
