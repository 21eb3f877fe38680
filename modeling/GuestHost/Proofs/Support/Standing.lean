import GuestHost.Proofs.Machine.Allocation
import GuestHost.Proofs.Session.Guest
import GuestHost.Proofs.Support.Place

/-! An instance of the support module stands for the life of its store: nothing that
guests or the host do replaces its code, its items, or what it imports. -/

namespace GuestHost.Support

open Machine

/-- The store has the instance, and the end of what it has handed out is a word. -/
structure Planted (p : Place) (s : Store) : Prop extends p.Rooted s where
  word : ∃ w, (s.globals[p.heap]?).map Global.value = some (.i32 w)

/-- The instance stands in the store, its memory may grow without a bound of its own, and the
end of what it has handed out is a word. -/
structure Standing (p : Place) (s : Store) : Prop extends p.Stands s where
  unbounded : ∀ m, s.memories[p.memory]? = some m → m.max = none
  word : ∃ w, (s.globals[p.heap]?).map Global.value = some (.i32 w)

/-- Whatever instance stands in the one store stands in the other. -/
def Lasts (s s' : Store) : Prop := ∀ p, Standing p s → Standing p s'

variable {p : Place} {s s' : Store}

namespace Planted

/-- What the host holds does not matter. -/
theorem withHost (h : Planted p s) (host : Host) : Planted p { s with host } :=
  ⟨⟨h.found, h.own, h.memory, h.heap⟩, h.word⟩

/-- What the instance's code works on is there. -/
theorem owns (h : Planted p s) : ∃ x, p.Owns s x := by
  obtain ⟨top, word⟩ := h.word
  exact ⟨⟨_, top, s.host.buffers⟩, Array.getElem?_eq_getElem h.memory, word, rfl⟩

theorem edit (h : Planted p s) (e : Edit s s') : Planted p s' := by
  cases e with
  | memory item max grows bound => exact ⟨⟨h.found, h.own, by simpa using h.memory, h.heap⟩, h.word⟩
  | table item max size => exact ⟨⟨h.found, h.own, h.memory, h.heap⟩, h.word⟩
  | @global a g v item type =>
      refine ⟨⟨h.found, h.own, h.memory, by simpa using h.heap⟩, ?_⟩
      obtain ⟨w, word⟩ := h.word
      dsimp only
      rw [Array.getElem?_modify]
      split
      · next same =>
          -- The new value has the type of the old one.
          subst same
          rw [item, Option.map_some, Option.some.injEq] at word
          rw [word] at type
          cases v with
          | i32 w' => exact ⟨w', by rw [item]; rfl⟩
          | i64 _ | f32 _ | f64 _ | ref _ => cases type
      · exact ⟨w, word⟩
  | data inst segment =>
      refine ⟨⟨?_, h.own, h.memory, h.heap⟩, h.word⟩
      rw [Frame.dataDrop]
      dsimp only
      rw [Array.getElem?_modify]
      split
      · -- The module has no data, so there is nothing to drop.
        rw [h.found]
        rfl
      · exact h.found

theorem allocate {m : Wasm.Module} {imports : List Extern}
    {bodies : List (Wasm.FuncType × List Wasm.ValType × List Wasm.Instr)} {i : Instance}
    (h : Planted p s) (added : Allocated s s' m imports bodies i) : Planted p s' := by
  obtain ⟨new, globals, -, -⟩ := added.globals
  refine ⟨⟨?_, fun found => ?_, ?_, ?_⟩, ?_⟩
  · rw [added.instances, Array.getElem?_push_lt (Array.getElem?_eq_some_iff.mp h.found).1]
    exact congrArg some (Array.getElem?_eq_some_iff.mp h.found).2
  · rw [added.funcs]
    exact getElem?_append_left _ (h.own found)
  · rw [added.memories, size_appendList]
    exact Nat.lt_of_lt_of_le h.memory (Nat.le_add_right _ _)
  · rw [globals, Array.size_append]
    exact Nat.lt_of_lt_of_le h.heap (Nat.le_add_right _ _)
  · obtain ⟨w, word⟩ := h.word
    obtain ⟨g, item, value⟩ := Option.map_eq_some_iff.mp word
    refine ⟨w, ?_⟩
    rw [globals, Array.getElem?_append_left h.heap, item, Option.map_some, value]

end Planted

/-- Nothing that happens in a session uproots the instance. -/
theorem planted_lasting (env : Environment) (p : Place) :
    Session.Lasting env fun s s' => Planted p s → Planted p s' where
  refl _ planted := planted
  trans h h' planted := h' (h planted)
  act {s s'} _ _ act planted := by
    cases act with
    | edit he => exact planted.edit he
    | allocate ha => exact planted.allocate (allocate_eq_ok ha)
    | capability => exact planted.withHost _
    | issue => exact planted.withHost _
    | answer => exact planted.withHost _
  failed _ _ _ planted := planted.withHost _
  entryless _ planted := planted.withHost _
  insert _ _ _ _ _ planted := planted.withHost _
  take _ _ planted := planted.withHost _

namespace Standing

theorem planted (h : Standing p s) : Planted p s := ⟨h.toRooted, h.word⟩

/-- What the instance's code works on is there. -/
theorem owns (h : Standing p s) : ∃ x, p.Owns s x := h.planted.owns

/-- What the instance imports stays in the store with it. -/
theorem of_planted (h : Standing p s) (planted : Planted p s')
    (funcs : ∀ {a : Nat} {f : Func}, s.funcs[a]? = some f → s'.funcs[a]? = some f)
    (unbounded : ∀ m, s'.memories[p.memory]? = some m → m.max = none) : Standing p s' :=
  ⟨⟨planted.toRooted, funcs h.bufferNew, funcs h.bufferSet, funcs h.bufferGet, funcs h.bufferSize⟩,
    unbounded, planted.word⟩

/-- What the host holds does not matter. -/
theorem withHost (h : Standing p s) (host : Host) : Standing p { s with host } :=
  h.of_planted (h.planted.withHost host) id h.unbounded

theorem edit (h : Standing p s) (e : Edit s s') : Standing p s' := by
  have planted := h.planted.edit e
  have unbounded : ∀ m, s'.memories[p.memory]? = some m → m.max = none := by
    intro m' found
    obtain ⟨m, before, max, -⟩ := e.memory_before found
    rw [max, h.unbounded m before]
  cases e with
  | memory | table | global | data => exact h.of_planted planted id unbounded

theorem allocate {m : Wasm.Module} {imports : List Extern}
    {bodies : List (Wasm.FuncType × List Wasm.ValType × List Wasm.Instr)} {i : Instance}
    (h : Standing p s) (added : Allocated s s' m imports bodies i) : Standing p s' := by
  refine h.of_planted (h.planted.allocate added) (fun found => ?_) fun m hm => ?_
  · rw [added.funcs]
    exact getElem?_append_left _ found
  · rw [added.memories, getElem?_append_left _ (Array.getElem?_eq_getElem h.memory)] at hm
    exact h.unbounded m ((Array.getElem?_eq_getElem h.memory).trans hm)

end Standing

/-- The instance has a memory, which has no more pages than words have addresses for. -/
structure Addressed (p : Place) (s : Store) : Prop where
  there : p.memory < s.memories.size
  few : ∀ m, s.memories[p.memory]? = some m → m.pages ≤ Wasm.maxPages

namespace Addressed

theorem withHost (h : Addressed p s) (host : Host) : Addressed p { s with host } := ⟨h.there, h.few⟩

theorem edit (h : Addressed p s) (e : Edit s s') : Addressed p s' := by
  have few : ∀ m, s'.memories[p.memory]? = some m → m.pages ≤ Wasm.maxPages := by
    intro m' found
    obtain ⟨m, before, -, kept | bounded⟩ := e.memory_before found
    · rw [kept]
      exact h.few m before
    · exact Nat.le_trans bounded (Nat.min_le_right _ _)
  cases e with
  | memory => exact ⟨by simpa using h.there, few⟩
  | table | global | data => exact ⟨h.there, few⟩

theorem allocate {m : Wasm.Module} {imports : List Extern}
    {bodies : List (Wasm.FuncType × List Wasm.ValType × List Wasm.Instr)} {i : Instance}
    (h : Addressed p s) (added : Allocated s s' m imports bodies i) : Addressed p s' := by
  have same : s'.memories[p.memory]? = s.memories[p.memory]? := by
    rw [added.memories, getElem?_append_left _ (Array.getElem?_eq_getElem h.there), Array.getElem?_eq_getElem]
  refine ⟨?_, fun m found => h.few m (same ▸ found)⟩
  rw [added.memories, size_appendList]
  exact Nat.lt_of_lt_of_le h.there (Nat.le_add_right _ _)

end Addressed

/-- Nothing that happens in a session gives the instance more pages than that. -/
theorem addressed_lasting (env : Environment) (p : Place) :
    Session.Lasting env fun s s' => Addressed p s → Addressed p s' where
  refl _ addressed := addressed
  trans h h' addressed := h' (h addressed)
  act {s s'} _ _ act addressed := by
    cases act with
    | edit he => exact addressed.edit he
    | allocate ha => exact addressed.allocate (allocate_eq_ok ha)
    | capability => exact addressed.withHost _
    | issue => exact addressed.withHost _
    | answer => exact addressed.withHost _
  failed _ _ _ addressed := addressed.withHost _
  entryless _ addressed := addressed.withHost _
  insert _ _ _ _ _ addressed := addressed.withHost _
  take _ _ addressed := addressed.withHost _

theorem act_lasts {env : Environment} {s s' : Store} {n n' : Nat} (h : Act env (s, n) (s', n')) :
    Lasts s s' := by
  intro p standing
  cases h with
  | edit he => exact standing.edit he
  | allocate ha => exact standing.allocate (allocate_eq_ok ha)
  | capability => exact standing.withHost _
  | issue => exact standing.withHost _
  | answer => exact standing.withHost _

theorem lasts_lasting (env : Environment) : Session.Lasting env Lasts where
  refl _ _ h := h
  trans h h' p standing := h' p (h p standing)
  act := act_lasts
  failed _ _ _ _ standing := standing.withHost _
  entryless _ _ standing := standing.withHost _
  insert _ _ _ _ _ _ standing := standing.withHost _
  take _ _ _ standing := standing.withHost _

end GuestHost.Support
