import GuestHost.Machine.Arithmetic
import GuestHost.Machine.Linking
import GuestHost.Wasm.Payload

/-! How a payload becomes an instance: its imports are resolved, its items are added
to the store, and its active segments are copied. The start function is left to the
machine. -/

namespace GuestHost.Machine

open Wasm

/-- The addresses of one kind among imported items. -/
def funcAddrs (xs : List Extern) : List Nat :=
  xs.filterMap fun | .func a => some a | _ => none

def tableAddrs (xs : List Extern) : List Nat :=
  xs.filterMap fun | .table a => some a | _ => none

def memoryAddrs (xs : List Extern) : List Nat :=
  xs.filterMap fun | .memory a => some a | _ => none

def globalAddrs (xs : List Extern) : List Nat :=
  xs.filterMap fun | .global a => some a | _ => none

/-- One operator of a constant expression. -/
def constantStep (s : Store) (i : Instance) (stack : List Val) :
    Operator → Except Trap (List Val)
  | .plain (.i32Const w) => .ok (.i32 w :: stack)
  | .plain (.i64Const w) => .ok (.i64 w :: stack)
  | .plain (.f64Const x) => .ok (.f64 x :: stack)
  | .plain .refNull => .ok (.ref none :: stack)
  | .plain (.refFunc f) => .ok (.ref i.funcs[f]? :: stack)
  | .plain (.globalGet g) =>
    match i.globals[g]?.bind (s.globals[·]?) with
    | some g => .ok (g.value :: stack)
    | none => .error .illTyped
  | .plain (.numeric op) => numeric op stack
  | _ => .error .illTyped

/-- The value of a constant expression. -/
def constant (s : Store) (i : Instance) (ops : List Operator) : Except Trap Val :=
  match ops.foldlM (constantStep s i) [] with
  | .ok [v] => .ok v
  | .ok _ => .error .illTyped
  | .error t => .error t

/-- The value of a constant expression that gives an index or an address. -/
def constantWord (s : Store) (i : Instance) (ops : List Operator) : Except Trap Nat :=
  match constant s i ops with
  | .ok (.i32 w) => .ok w.toNat
  | .ok _ => .error .illTyped
  | .error t => .error t

/-- The code of a module's own functions, nested. A valid module has it. -/
def nestedBodies? (m : Module) : Option (List (FuncType × List ValType × List Instr)) :=
  (m.funcs.zip m.bodies).mapM fun (t, b) => do
    let type ← m.types[t]?
    let code ← Instr.nest? b.code
    return (type, b.localTypes, code)

/-- Adds a module's own global after those before it. -/
def addGlobal (g : Wasm.Global) : Store × Instance → Except Trap (Store × Instance)
  | (s, i) => do
    let value ← constant s i g.init
    return ({ s with globals := s.globals.push ⟨g.type, value⟩ },
      { i with globals := i.globals.push s.globals.size })

/-- What an export stands for. -/
def exported? (i : Instance) (e : Export) : Option (String × Extern) :=
  match e.kind with
  | .func => i.funcs[e.index]?.map fun a => (e.name, .func a)
  | .table => i.tables[e.index]?.map fun a => (e.name, .table a)
  | .memory => i.memories[e.index]?.map fun a => (e.name, .memory a)
  | .global => i.globals[e.index]?.map fun a => (e.name, .global a)

/-- A segment that is copied at once has nothing left to copy from. -/
def keptBytes (d : Data) : List UInt8 :=
  match d.mode with
  | .active _ _ => []
  | .passive => d.bytes

/-- Adds the items of a module, imports resolved, and its instance. -/
def Store.allocate (s : Store) (m : Module) (imports : List Extern)
    (bodies : List (FuncType × List ValType × List Instr)) : Except Trap (Store × Instance) := do
  let inst := s.instances.size
  let i : Instance :=
    { types := m.types
      funcs := (funcAddrs imports ++ List.range' s.funcs.size bodies.length).toArray
      tables := (tableAddrs imports ++ List.range' s.tables.size m.tables.length).toArray
      memories := (memoryAddrs imports ++ List.range' s.memories.size m.memories.length).toArray
      globals := (globalAddrs imports).toArray
      data := (m.data.map keptBytes).toArray }
  let s : Store :=
    { s with
      funcs := s.funcs ++ bodies.map fun (t, locals, code) => Func.guest t inst locals code
      tables := s.tables ++ m.tables.map fun l => Table.mk (Array.replicate l.min none) l.max
      memories := s.memories ++ m.memories.map fun l => Memory.mk l.min l.max {} }
  let (s, i) ← m.globals.foldlM (fun si g => addGlobal g si) (s, i)
  let i := { i with exports := m.exports.filterMap (exported? i) }
  return ({ s with instances := s.instances.push i }, i)

/-- Writes references into a table from an index on. -/
def Table.fill (t : Table) : Nat → List (Option Nat) → Table
  | _, [] => t
  | first, r :: rs => fill { t with entries := t.entries.setIfInBounds first r } (first + 1) rs

/-- Copies an element segment, if it is active. -/
def copyElem (s : Store) (i : Instance) (e : Elem) : Except Trap Store :=
  match e.mode with
  | .active table offset =>
    match constantWord s i offset, i.tables[table.getD 0]? with
    | .error t, _ => .error t
    | .ok _, none => .error .illTyped
    | .ok first, some a =>
      match s.tables[a]? with
      | none => .error .illTyped
      | some t =>
        if first + e.funcs.length ≤ t.entries.size then
          .ok { s with tables :=
            s.tables.setIfInBounds a (t.fill first (e.funcs.map fun f => i.funcs[f]?)) }
        else .error .tableBounds
  | _ => .ok s

/-- Copies a data segment, if it is active. -/
def copyData (s : Store) (i : Instance) (d : Data) : Except Trap Store :=
  match d.mode with
  | .active memory offset =>
    match constantWord s i offset, i.memories[memory]? with
    | .error t, _ => .error t
    | .ok _, none => .error .illTyped
    | .ok first, some a =>
      match s.memories[a]? with
      | none => .error .illTyped
      | some m =>
        match m.write? first d.bytes with
        | some m => .ok { s with memories := s.memories.setIfInBounds a m }
        | none => .error .memoryBounds
  | .passive => .ok s

/-- Copies segments in order up to the first that does not fit; what was copied stays. -/
def copyAll {α : Type} (copy : Store → α → Except Trap Store) :
    Store → List α → Option Trap × Store
  | s, [] => (none, s)
  | s, x :: xs =>
    match copy s x with
    | .ok s => copyAll copy s xs
    | .error t => (some t, s)

/-- Copies element segments, then data segments. -/
def Store.copySegments (s : Store) (m : Module) (i : Instance) : Option Trap × Store :=
  match copyAll (fun s e => copyElem s i e) s m.elems with
  | (some t, s) => (some t, s)
  | (none, s) => copyAll (fun s d => copyData s i d) s m.data

/-- An instance that is ready but for its start function, if it has one. -/
structure Ready where
  inst : Nat
  start : Option Nat
  deriving DecidableEq, Repr

/-- The complaint about a payload that holds no valid module. -/
def invalidPayload : Error := .validation "not a valid module"

/-- Brings a payload to life up to its start function. -/
def Store.instantiate (s : Store) (links : Links) (payload : Array UInt8) :
    Except Error Ready × Store :=
  match Module.ofBytes? payload.toList with
  | none => (.error invalidPayload, s)
  | some m =>
    match nestedBodies? m with
    | none => (.error invalidPayload, s)
    | some bodies =>
      match s.resolve links m with
      | .error e => (.error e, s)
      | .ok imports =>
        match s.allocate m imports bodies with
        | .error t => (.error (.instantiate t.message), s)
        | .ok (s', i) =>
          match s'.copySegments m i with
          | (some t, s') => (.error (.instantiate t.message), s')
          | (none, s') =>
            (.ok ⟨s.instances.size, m.start.bind (i.funcs[·]?)⟩, s')

end GuestHost.Machine
