import GuestHost.Wasm.Text.Code

/-! The fields of a module in text. Imports come before definitions, every name is
given once, and items are numbered in order of appearance. -/

namespace GuestHost.Wasm.Text

/-- What an item that can be imported is, if it is defined here. -/
inductive Definition
  | func (use : TypeUse) (rest : List Tree)
  | table (limits : Limits) (entries : Option (List Tree))
  | memory (limits : Limits) (contents : Option (List UInt8))
  | global (type : GlobalType) (init : List Tree)

/-- A field of a module. An item carries its name, its exports and the import it
stands for, if any. -/
inductive Field
  | type (id : Option String) (t : FuncType)
  | item (id : Option String) (exports : List String) (source : Option (String × String))
      (what : Definition)
  | alias (name : String) (kind : ExternKind) (target : String)
  | start (target : String)
  | elem (id : Option String) (table : Option String) (declared : Bool)
      (offset : Option (List Tree)) (funcs : List Tree)
  | data (id : Option String) (memory : Option String) (offset : Option (List Tree))
      (bytes : List UInt8)

def nameOf? (bytes : List UInt8) : Option String := Utf8.decode? bytes.toArray

/-- The exports in front of an item's contents. -/
def exports? : List Tree → Option (List String × List Tree)
  | .list [.word "export", .string name] :: rest =>
    match nameOf? name, exports? rest with
    | some n, some (ns, rest) => some (n :: ns, rest)
    | _, _ => none
  | rest => some ([], rest)

/-- The import in front of an item's contents. -/
def source? : List Tree → Option (Option (String × String) × List Tree)
  | .list [.word "import", .string space, .string name] :: rest =>
    match nameOf? space, nameOf? name with
    | some s, some n => some (some (s, n), rest)
    | _, _ => none
  | rest => some (none, rest)

/-- Bounds in front: a minimum and perhaps a maximum. -/
def limits? (ts : List Tree) : Option (Limits × List Tree) :=
  match ts with
  | .word a :: .word b :: rest =>
    match index? a, index? b with
    | some min, some max => some (⟨min, some max⟩, rest)
    | some min, none => some (⟨min, none⟩, .word b :: rest)
    | none, _ => none
  | .word a :: rest => (index? a).map fun min => (⟨min, none⟩, rest)
  | _ => none

def globalType? : Tree → Option GlobalType
  | .list [.word "mut", t] => (valType? t).map fun t => ⟨t, true⟩
  | t => (valType? t).map fun t => ⟨t, false⟩

/-- The bytes of strings, one after the other. -/
def strings? : List Tree → Option (List UInt8)
  | [] => some []
  | .string b :: rest => (strings? rest).map (b ++ ·)
  | _ => none

/-- The contents of an item of a kind. An imported one has a type and nothing else. -/
def definition? (types : Ids) (kind : String) (imported : Bool) (ts : List Tree) :
    Option Definition :=
  match kind with
  | "func" =>
    (typeUse? types ts).bind fun (u, rest) =>
      if imported ∧ !rest.isEmpty then none else some (.func u rest)
  | "table" =>
    match ts with
    | [t, .list (.word "elem" :: entries)] =>
      if imported ∨ valType? t ≠ some .funcref then none
      else some (.table ⟨entries.length, some entries.length⟩ (some entries))
    | ts =>
      match limits? ts with
      | some (l, [t]) => if valType? t = some .funcref then some (.table l none) else none
      | _ => none
  | "memory" =>
    match ts with
    | [.list (.word "data" :: bytes)] =>
      if imported then none
      else (strings? bytes).map fun b =>
        let pages := (b.length + pageSize - 1) / pageSize
        .memory ⟨pages, some pages⟩ (some b)
    | ts =>
      match limits? ts with
      | some (l, []) => some (.memory l none)
      | _ => none
  | "global" =>
    match ts with
    | t :: init =>
      if imported ∧ !init.isEmpty then none else (globalType? t).map fun t => .global t init
    | [] => none
  | _ => none

/-- The type of a type field. -/
def typeField? (types : Ids) (ts : List Tree) : Option (Option String × FuncType) :=
  match splitId ts with
  | (id, [.list (.word "func" :: ts)]) =>
    match typeUse? types ts with
    | some (u, []) => if u.index.isNone then some (id, u.inline) else none
    | _ => none
  | _ => none

/-- An offset in front, as the instructions that compute it. -/
def offset? : List Tree → Option (List Tree) × List Tree
  | .list (.word "offset" :: ts) :: rest => (some ts, rest)
  | .list ts :: rest => (some [.list ts], rest)
  | rest => (none, rest)

def elemField? (ts : List Tree) : Option Field :=
  let (id, ts) := splitId ts
  let funcs (ts : List Tree) : List Tree :=
    match ts with
    | .word "func" :: rest => rest
    | rest => rest
  match ts with
  | .word "declare" :: rest => some (.elem id none true none (funcs rest))
  | .list [.word "table", .word t] :: rest =>
    match offset? rest with
    | (some o, rest) => some (.elem id (some t) false (some o) (funcs rest))
    | (none, _) => none
  | ts =>
    match offset? ts with
    | (some o, rest) => some (.elem id none false (some o) (funcs rest))
    | (none, .word "func" :: rest) => some (.elem id none false none rest)
    | (none, _) => none

def dataField? (ts : List Tree) : Option Field :=
  let (id, ts) := splitId ts
  let (memory, ts) : Option String × List Tree :=
    match ts with
    | .list [.word "memory", .word m] :: rest => (some m, rest)
    | ts => (none, ts)
  let (offset, ts) := offset? ts
  if memory.isSome ∧ offset.isNone then none
  else (strings? ts).map fun b => .data id memory offset b

/-- Reads a field, given the names of the module's types. -/
def field? (types : Ids) (keyword : String) (ts : List Tree) : Option Field :=
  match keyword with
  | "type" => (typeField? types ts).map fun (id, t) => .type id t
  | "import" =>
    match ts with
    | [.string space, .string name, .list (.word kind :: ts)] =>
      match nameOf? space, nameOf? name with
      | some s, some n =>
        let (id, ts) := splitId ts
        (definition? types kind true ts).map fun d => .item id [] (some (s, n)) d
      | _, _ => none
    | _ => none
  | "export" =>
    match ts with
    | [.string name, .list [.word kind, .word target]] =>
      match nameOf? name, ExternKind.all.find? (fun k => k.name == kind) with
      | some n, some k => some (.alias n k target)
      | _, _ => none
    | _ => none
  | "start" =>
    match ts with
    | [.word target] => some (.start target)
    | _ => none
  | "elem" => elemField? ts
  | "data" => dataField? ts
  | keyword =>
    let (id, ts) := splitId ts
    match exports? ts with
    | none => none
    | some (names, ts) =>
      match source? ts with
      | none => none
      | some (source, ts) =>
        (definition? types keyword source.isSome ts).map fun d => .item id names source d

/-- The kind of an item, as imports and exports name it. -/
def Definition.kind : Definition → ExternKind
  | .func _ _ => .func
  | .table _ _ => .table
  | .memory _ _ => .memory
  | .global _ _ => .global

/-- No import follows a definition. -/
def importsFirst : Bool → List Field → Bool
  | _, [] => true
  | defined, .item _ _ source _ :: rest =>
    if source.isSome then !defined && importsFirst defined rest else importsFirst true rest
  | defined, _ :: rest => importsFirst defined rest

/-- The names of items that a predicate selects, numbered in order of appearance. -/
def idsOf (select : Field → Option (Option String)) (fs : List Field) : Ids :=
  ((fs.filterMap select).zipIdx).filterMap fun (id, i) => id.map fun id => (id, i)

def idsOfKind (k : ExternKind) : List Field → Ids :=
  idsOf fun
    | .item id _ _ d => if d.kind = k then some id else none
    | _ => none

/-- Fields that are or hold a data segment. -/
def dataIds : List Field → Ids :=
  idsOf fun
    | .data id _ _ _ => some id
    | .item _ _ _ (.memory _ (some _)) => some none
    | _ => none

/-- Fields that are or hold an element segment. -/
def elemIds : List Field → Ids :=
  idsOf fun
    | .elem id _ _ _ _ => some id
    | .item _ _ _ (.table _ (some _)) => some none
    | _ => none

def distinct (ids : Ids) : Bool := decide ((ids.map (·.1)).Nodup)

def names (ids : Ids) : NameMap := ids.map fun (id, i) => (i, bareName id)

/-- Locals in runs of one type. -/
def runs : List ValType → List (Nat × ValType)
  | [] => []
  | t :: ts =>
    match runs ts with
    | (n, u) :: rest => if u = t then (n + 1, u) :: rest else (1, t) :: (n, u) :: rest
    | [] => [(1, t)]

/-- The operators of a constant expression. -/
def constant (fuel : Nat) (env : Env) (ts : List Tree) : Gen (List Operator) :=
  closed fuel env [] ts

/-- A function body with the names of its locals and blocks. -/
def body (fuel : Nat) (env : Env) (u : TypeUse) (t : FuncType) (ts : List Tree) :
    Gen (Body × NameMap × NameMap) := do
  let (locals, code) ← lift (groups? "local" ts)
  let params : List (Option String) :=
    if u.params.isEmpty then t.params.map fun _ => none else u.params.map (·.1)
  let ids := idsOf (fun id => some id) <| (params ++ locals.map (·.1))
  ensure (distinct ids)
  modify fun p => { p with blocks := 0, blockNames := [] }
  let ops ← closed fuel { env with locals := ids } [] code
  let blockNames := (← get).blockNames
  return (⟨runs (locals.map (·.2)), ops ++ [.close]⟩, names ids, blockNames)
where
  idsOf (select : Option String → Option (Option String)) (ids : List (Option String)) : Ids :=
    ((ids.filterMap select).zipIdx).filterMap fun (id, i) => id.map fun id => (id, i)

/-- Adds named entries for the index, if there are any. -/
def withNames (all : List (Nat × NameMap)) (i : Nat) (ns : NameMap) : List (Nat × NameMap) :=
  if ns.isEmpty then all else all ++ [(i, ns)]

def functionList (env : Env) (ts : List Tree) : Gen (List Nat) :=
  ts.mapM fun
    | .word w => lift (env.funcs.resolve? w)
    | _ => refuse

/-- Adds an item to the module. -/
def addItem (fuel : Nat) (env : Env) (m : Module) (source : Option (String × String)) :
    Definition → Gen Module
  | .func u rest => do
    let type ← u.resolve
    match source with
    | some (s, n) => return { m with imports := m.imports ++ [⟨s, n, .func type⟩] }
    | none =>
      let t ← lift ((← get).types[type]?)
      let (b, locals, labels) ← body fuel env u t rest
      let index := m.funcTypes.length
      return { m with
        funcs := m.funcs ++ [type]
        bodies := m.bodies ++ [b]
        names := { m.names with
          locals := withNames m.names.locals index locals
          labels := withNames m.names.labels index labels } }
  | .table l entries => do
    match source, entries with
    | some (s, n), _ => return { m with imports := m.imports ++ [⟨s, n, .table l⟩] }
    | none, none => return { m with tables := m.tables ++ [l] }
    | none, some ts =>
      let funcs ← functionList env ts
      let segment : Elem := ⟨.active (some m.tableTypes.length) [.plain (.i32Const 0)], funcs⟩
      return { m with tables := m.tables ++ [l], elems := m.elems ++ [segment] }
  | .memory l contents => do
    match source, contents with
    | some (s, n), _ => return { m with imports := m.imports ++ [⟨s, n, .memory l⟩] }
    | none, none => return { m with memories := m.memories ++ [l] }
    | none, some b =>
      let segment : Data := ⟨.active m.memoryTypes.length [.plain (.i32Const 0)], b⟩
      return { m with memories := m.memories ++ [l], data := m.data ++ [segment] }
  | .global t init => do
    match source with
    | some (s, n) => return { m with imports := m.imports ++ [⟨s, n, .global t⟩] }
    | none =>
      let ops ← constant fuel env init
      return { m with globals := m.globals ++ [⟨t, ops⟩] }

/-- The number of items of a kind so far, which is the index of the next one. -/
def nextIndex (m : Module) : ExternKind → Nat
  | .func => m.funcTypes.length
  | .table => m.tableTypes.length
  | .memory => m.memoryTypes.length
  | .global => m.globalTypes.length

def Env.ids (env : Env) : ExternKind → Ids
  | .func => env.funcs
  | .table => env.tables
  | .memory => env.memories
  | .global => env.globals

/-- Adds a field to the module. Types are there already. -/
def addField (fuel : Nat) (env : Env) (m : Module) : Field → Gen Module
  | .type _ _ => return m
  | .item _ exports source d => do
    let index := nextIndex m d.kind
    let m := { m with exports := m.exports ++ exports.map fun n => ⟨n, d.kind, index⟩ }
    addItem fuel env m source d
  | .alias name kind target => do
    let index ← lift ((env.ids kind).resolve? target)
    return { m with exports := m.exports ++ [⟨name, kind, index⟩] }
  | .start target => do
    ensure m.start.isNone
    let index ← lift (env.funcs.resolve? target)
    return { m with start := some index }
  | .elem _ table declared offset funcs => do
    let mode : ElemMode ← match offset with
      | none => pure (if declared then .declared else .passive)
      | some ts => do
        let table ← table.mapM fun t => lift (env.tables.resolve? t)
        let ops ← constant fuel env ts
        pure (.active table ops)
    let funcs ← functionList env funcs
    return { m with elems := m.elems ++ [⟨mode, funcs⟩] }
  | .data _ memory offset bytes => do
    let mode : DataMode ← match offset with
      | none => pure .passive
      | some ts => do
        let memory ← match memory with
          | none => pure 0
          | some w => lift (env.memories.resolve? w)
        let ops ← constant fuel env ts
        pure (.active memory ops)
    return { m with data := m.data ++ [⟨mode, bytes⟩] }

def namesSegment : Operator → Bool
  | .plain (.memoryInit _) => true
  | .plain (.dataDrop _) => true
  | _ => false

/-- The module that fields describe. -/
def ofFields? (fuel : Nat) (id : Option String) (trees : List Tree) : Option Module := do
  let heads ← trees.mapM fun
    | .list (.word keyword :: ts) => some (keyword, ts)
    | _ => none
  let types ← (heads.filter (·.1 == "type")).mapM fun (_, ts) => typeField? [] ts
  let typeIds := types.zipIdx.filterMap fun ((id, _), i) => id.map fun id => (id, i)
  let fields ← heads.mapM fun (keyword, ts) => field? typeIds keyword ts
  let env : Env :=
    { types := typeIds
      funcs := idsOfKind .func fields
      tables := idsOfKind .table fields
      memories := idsOfKind .memory fields
      globals := idsOfKind .global fields
      elems := elemIds fields
      data := dataIds fields }
  let all := [env.types, env.funcs, env.tables, env.memories, env.globals, env.elems, env.data]
  if importsFirst false fields && all.all distinct then
    let (m, p) ← (fields.foldlM (addField fuel env) ({} : Module)).run { types := types.map (·.2) }
    some { m with
      types := p.types
      dataCount := if m.bodies.any (·.code.any namesSegment) then some m.data.length else none
      names := { m.names with
        module := id.map bareName
        funcs := names env.funcs
        types := names env.types
        tables := names env.tables
        memories := names env.memories
        globals := names env.globals
        elems := names env.elems
        data := names env.data } }
  else none

/-- What a text describes. -/
inductive Source
  | module (m : Module)
  /-- An empty component. -/
  | component

/-- Reads a whole text: one module or component in parentheses, or the fields of a
module alone. -/
def parse? (text : String) : Option Source := do
  let trees ← trees? text
  let fuel := fuelOf text
  match trees with
  | [] => none
  | [.list (.word "module" :: ts)] =>
    let (id, ts) := splitId ts
    (ofFields? fuel id ts).map .module
  | [.list [.word "component"]] => some .component
  | trees => (ofFields? fuel none trees).map .module

end GuestHost.Wasm.Text
