import GuestHost.Proofs.Machine.Allocation
import GuestHost.Proofs.Session.Guest

/-! Stores only grow: an address stands for the same function, and an instance exports
the same items under the same names, whatever guests and the host do afterwards. -/

namespace GuestHost.Machine

/-- Functions are where they were, and instances export what they did. -/
structure Grows (s s' : Store) : Prop where
  funcs : ∀ {a : Nat} {f : Func}, s.funcs[a]? = some f → s'.funcs[a]? = some f
  instances : ∀ {inst : Nat} {i : Instance}, s.instances[inst]? = some i →
    ∃ i', s'.instances[inst]? = some i' ∧ i'.exports = i.exports

namespace Grows

variable {s s' s'' : Store}

theorem of_eq (funcs : s'.funcs = s.funcs) (instances : s'.instances = s.instances) : Grows s s' where
  funcs found := by rwa [funcs]
  instances found := ⟨_, by rwa [instances], rfl⟩

theorem refl (s : Store) : Grows s s := of_eq rfl rfl

/-- What the host holds does not matter. -/
theorem withHost (s : Store) (host : Host) : Grows s { s with host } := of_eq rfl rfl

theorem trans (h : Grows s s') (h' : Grows s' s'') : Grows s s'' where
  funcs found := h'.funcs (h.funcs found)
  instances found := by
    obtain ⟨i', found', same'⟩ := h.instances found
    obtain ⟨i'', found'', same''⟩ := h'.instances found'
    exact ⟨i'', found'', same''.trans same'⟩

/-- What an instance exports under a name does not change while the store grows. -/
theorem export? (h : Grows s s') {inst : Nat} {i : Instance} (found : s.instances[inst]? = some i)
    (name : String) : s'.export? inst name = s.export? inst name := by
  obtain ⟨i', found', same⟩ := h.instances found
  rw [Store.export?, Store.export?, found, found', Option.bind_some, Option.bind_some, Instance.find?,
    Instance.find?, same]

theorem edit (e : Edit s s') : Grows s s' := by
  cases e with
  | memory => exact of_eq rfl rfl
  | table => exact of_eq rfl rfl
  | global => exact of_eq rfl rfl
  | data inst segment =>
      refine ⟨id, fun {k i} found => ?_⟩
      rw [Frame.dataDrop]
      dsimp only
      rw [Array.getElem?_modify, found]
      split
      · exact ⟨_, rfl, rfl⟩
      · exact ⟨i, rfl, rfl⟩

theorem allocated {m : Wasm.Module} {imports : List Extern}
    {bodies : List (Wasm.FuncType × List Wasm.ValType × List Wasm.Instr)} {i : Instance}
    (added : Allocated s s' m imports bodies i) : Grows s s' where
  funcs found := by
    rw [added.funcs]
    exact getElem?_append_left _ found
  instances {k j} found := by
    obtain ⟨inside, same⟩ := Array.getElem?_eq_some_iff.mp found
    refine ⟨j, ?_, rfl⟩
    rw [added.instances, Array.getElem?_push_lt inside, same]

end Grows

theorem act_grows {env : Environment} {s s' : Store} {n n' : Nat} (h : Act env (s, n) (s', n')) :
    Grows s s' := by
  cases h with
  | edit he => exact .edit he
  | allocate ha => exact .allocated (allocate_eq_ok ha)
  | capability => exact .withHost s _
  | issue => exact .withHost s _
  | answer => exact .withHost s _

/-- Nothing that a session does to its store takes anything away. -/
theorem grows_lasting (env : Environment) : Session.Lasting env Grows where
  refl := .refl
  trans := .trans
  act := act_grows
  failed s _ _ := .withHost s _
  entryless s := .withHost s _
  insert s _ _ _ _ := .withHost s _
  take s _ := .withHost s _

/-- The functions of the host are the same at all times: no others are ever added. -/
theorem hosts_lasting (env : Environment) : Session.Lasting env fun s s' =>
    ∀ ⦃a : Nat⦄ ⦃c : Capability⦄, s'.funcs[a]? = some (.host c) → s.funcs[a]? = some (.host c) where
  refl _ _ _ found := found
  trans h h' _ _ found := h (h' found)
  act {s s'} _ _ act a c found := by
    cases act with
    | edit he =>
        cases he with
        | memory => exact found
        | table => exact found
        | global => exact found
        | data => exact found
    | allocate ha =>
        rw [(allocate_eq_ok ha).funcs, ← Array.getElem?_toList, Array.toList_appendList] at found
        rw [List.getElem?_append] at found
        split at found
        · rwa [Array.getElem?_toList] at found
        · have own := List.mem_of_getElem? found
          simp [ownFuncs] at own
    | capability => exact found
    | issue => exact found
    | answer => exact found
  failed _ _ _ _ _ found := found
  entryless _ _ _ found := found
  insert _ _ _ _ _ _ _ found := found
  take _ _ _ _ found := found

end GuestHost.Machine
