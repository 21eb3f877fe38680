import GuestHost.Machine.Store
import GuestHost.Registry

/-! What the imports of a module stand for. -/

namespace GuestHost.Machine

open Wasm

/-- The definitions that imports are resolved against. -/
abbrev Links := Registry Extern

/-- Bounds that a size and its own bound keep. -/
def Limits.admits (l : Limits) (size : Nat) (max : Option Nat) : Bool :=
  decide (l.min ≤ size) &&
    match l.max, max with
    | none, _ => true
    | some bound, some max => max ≤ bound
    | some _, none => false

/-- Whether an item is what an import asks for. Sizes are those at the moment. -/
def Store.fits (s : Store) (types : List FuncType) (t : ImportType) (x : Extern) : Bool :=
  match t, x with
  | .func i, .func a =>
    match types[i]?, s.funcs[a]? with
    | some t, some f => f.type == t
    | _, _ => false
  | .table l, .table a => s.tables[a]?.any fun t => Limits.admits l t.entries.size t.max
  | .memory l, .memory a => s.memories[a]?.any fun m => Limits.admits l m.pages m.max
  | .global t, .global a => s.globals[a]?.any fun g => g.type == t
  | _, _ => false

/-- The name by which an import is reported. -/
def importName (i : Import) : String := i.space ++ "::" ++ i.name

/-- The items that a module's imports stand for. Names are looked up before any type
is compared, so a name without definition is reported first, wherever it stands. -/
def Store.resolve (s : Store) (links : Links) (m : Module) : Except Error (List Extern) :=
  match m.imports.find? fun i => (links.get? i.space i.name).isNone with
  | some i => .error (.link (importName i))
  | none =>
    let found := m.imports.filterMap fun i => (links.get? i.space i.name).map fun x => (i, x)
    match found.find? fun (i, x) => !s.fits m.types i.type x with
    | some (i, _) => .error (.instantiate ("incompatible import type for `" ++ importName i ++ "`"))
    | none => .ok (found.map (·.2))

end GuestHost.Machine
