import GuestHost.Machine.Instantiation

/-! What bringing a module to life adds to a store: items at the end of every kind, and
one instance. Nothing that was there is touched. -/

namespace GuestHost.Machine

open Wasm (Module FuncType ValType Instr)

theorem bind_eq_ok {ε α β : Type} {x : Except ε α} {f : α → Except ε β} {b : β}
    (h : x >>= f = .ok b) : ∃ a, x = .ok a ∧ f a = .ok b := by
  cases x with
  | error e => cases h
  | ok a => exact ⟨a, rfl, h⟩

theorem getElem?_append_left {α : Type} {xs : Array α} (ys : List α) {a : Nat} {x : α}
    (h : xs[a]? = some x) : (xs ++ ys)[a]? = some x := by
  obtain ⟨inside, hx⟩ := List.getElem?_eq_some_iff.mp (Array.getElem?_toList.trans h)
  rw [← Array.getElem?_toList, Array.toList_appendList, List.getElem?_append_left inside,
    Array.getElem?_toList, h]

theorem getElem?_append_right {α : Type} (xs : Array α) (ys : List α) (k : Nat) :
    (xs ++ ys)[xs.size + k]? = ys[k]? := by
  rw [← Array.getElem?_toList, Array.toList_appendList, ← Array.length_toList,
    List.getElem?_append_right (Nat.le_add_right _ _), Nat.add_sub_cancel_left]

theorem size_appendList {α : Type} (xs : Array α) (ys : List α) : (xs ++ ys).size = xs.size + ys.length := by
  rw [← Array.length_toList, Array.toList_appendList, List.length_append, Array.length_toList]

/-- Globals are added at the end, and the instance knows them by their addresses. -/
theorem addGlobals_eq_ok {gs : List Wasm.Global} {s s' : Store} {i i' : Instance}
    (h : gs.foldlM (fun si g => addGlobal g si) (s, i) = .ok (s', i')) :
    ∃ new : Array Global, s' = { s with globals := s.globals ++ new } ∧
      i' = { i with globals := i.globals ++ Array.range' s.globals.size new.size } ∧
      new.map Global.type = (gs.map (·.type)).toArray := by
  induction gs generalizing s i with
  | nil =>
      cases h
      exact ⟨#[], by simp⟩
  | cons g gs ih =>
      rw [List.foldlM_cons] at h
      obtain ⟨⟨s₁, i₁⟩, hg, h⟩ := bind_eq_ok h
      obtain ⟨v, _, hv⟩ := bind_eq_ok hg
      cases hv
      obtain ⟨new, hs, hi, ht⟩ := ih h
      refine ⟨#[⟨g.type, v⟩] ++ new, ?_, ?_, ?_⟩
      · simp [hs]
      · simp [hi, Nat.add_comm 1, Array.range'_succ]
      · simp [ht]

/-- What a module's own functions are once the module is an instance. -/
def ownFuncs (inst : Nat) (bodies : List (FuncType × List ValType × List Instr)) : List Func :=
  bodies.map fun (t, locals, code) => .guest t inst locals code

/-- A store after a module was added. -/
structure Allocated (s s' : Store) (m : Module) (imports : List Extern)
    (bodies : List (FuncType × List ValType × List Instr)) (i : Instance) : Prop where
  funcs : s'.funcs = s.funcs ++ ownFuncs s.instances.size bodies
  tables : s'.tables =
    s.tables ++ m.tables.map fun l => Table.mk (Array.replicate l.min none) l.max
  memories : s'.memories = s.memories ++ m.memories.map fun l => Memory.mk l.min l.max {}
  globals : ∃ new : Array Global, s'.globals = s.globals ++ new ∧
    new.map Global.type = (m.globals.map (·.type)).toArray ∧
    i.globals = (globalAddrs imports).toArray ++ Array.range' s.globals.size new.size
  instances : s'.instances = s.instances.push i
  host : s'.host = s.host
  ownTypes : i.types = m.types
  ownFuncs : i.funcs = (funcAddrs imports ++ List.range' s.funcs.size bodies.length).toArray
  ownTables : i.tables = (tableAddrs imports ++ List.range' s.tables.size m.tables.length).toArray
  ownMemories :
    i.memories = (memoryAddrs imports ++ List.range' s.memories.size m.memories.length).toArray
  exports : i.exports = m.exports.filterMap (exported? i)

theorem allocate_eq_ok {s s' : Store} {m : Module} {imports : List Extern}
    {bodies : List (FuncType × List ValType × List Instr)} {i : Instance}
    (h : s.allocate m imports bodies = .ok (s', i)) : Allocated s s' m imports bodies i := by
  unfold Store.allocate at h
  obtain ⟨⟨s₁, i₁⟩, added, h⟩ := bind_eq_ok h
  obtain ⟨new, rfl, rfl, types⟩ := addGlobals_eq_ok added
  cases h
  exact {
    funcs := by simp [ownFuncs]
    tables := rfl
    memories := rfl
    globals := ⟨new, rfl, types, rfl⟩
    instances := rfl
    host := rfl
    ownTypes := rfl
    ownFuncs := rfl
    ownTables := rfl
    ownMemories := rfl
    exports := rfl }

end GuestHost.Machine
