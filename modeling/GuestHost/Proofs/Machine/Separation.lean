import GuestHost.Proofs.Machine.Growth
import Mathlib.Data.List.Forall2

/-! Instances share what they import, and nothing else. The functions, tables, memories and
globals that come into the store with a module are its instance's own for the life of the store:
no other instance has them, for the definitions that modules are linked against do not change. -/

namespace GuestHost.Machine

open Wasm (Module)

/-- The items of an instance, its own and those that it imports. -/
def Instance.items (i : Instance) : List Extern :=
  i.funcs.toList.map .func ++ i.tables.toList.map .table ++ i.memories.toList.map .memory ++
    i.globals.toList.map .global

/-- The address stands for an item of the store. -/
def Store.Has (s : Store) : Extern → Prop
  | .func a => a < s.funcs.size
  | .table a => a < s.tables.size
  | .memory a => a < s.memories.size
  | .global a => a < s.globals.size

/-- Modules can be linked against the item. -/
def Offered (links : Links) (x : Extern) : Prop := ∃ ns name, links.get? ns name = some x

/-- All that instances have is there, and they export nothing else. -/
structure Sound (s : Store) : Prop where
  items : ∀ {k : Nat} {i : Instance}, s.instances[k]? = some i → ∀ x ∈ i.items, s.Has x
  exports : ∀ {k : Nat} {i : Instance}, s.instances[k]? = some i → ∀ p ∈ i.exports, p.2 ∈ i.items

/-- What becomes of a store's instances. Those that were there keep their items and all else but
the data left to copy from; of what was there, new ones have what modules are linked against. -/
structure Apart (links : Links) (s s' : Store) : Prop where
  has : ∀ {x : Extern}, s.Has x → s'.Has x
  old : ∀ {k : Nat} {i : Instance}, s.instances[k]? = some i →
    ∃ data, s'.instances[k]? = some { i with data }
  new : ∀ {k : Nat} {i : Instance}, s'.instances[k]? = some i → s.instances.size ≤ k →
    ∀ x ∈ i.items, s.Has x → Offered links x

variable {links : Links} {s s' s'' : Store}

/-! ## Imports -/

theorem fits_has {types : List Wasm.FuncType} {t : Wasm.ImportType} {x : Extern}
    (fits : s.fits types t x = true) : s.Has x := by
  unfold Store.fits at fits
  split at fits
  · split at fits
    · next found => exact (Array.getElem?_eq_some_iff.mp found).1
    · cases fits
  · obtain ⟨_, found, _⟩ := (Option.any_eq_true _ _).mp fits
    exact (Array.getElem?_eq_some_iff.mp found).1
  · obtain ⟨_, found, _⟩ := (Option.any_eq_true _ _).mp fits
    exact (Array.getElem?_eq_some_iff.mp found).1
  · obtain ⟨_, found, _⟩ := (Option.any_eq_true _ _).mp fits
    exact (Array.getElem?_eq_some_iff.mp found).1
  · cases fits

/-- What a module's imports stand for, one after the other. -/
theorem resolve_forall₂ {m : Module} {imports : List Extern} (resolved : s.resolve links m = .ok imports) :
    List.Forall₂ (fun i x => links.get? i.space i.name = some x ∧ s.fits m.types i.type x = true)
      m.imports imports := by
  unfold Store.resolve at resolved
  split at resolved
  · cases resolved
  · next known =>
      dsimp only at resolved
      split at resolved
      · cases resolved
      · next fitting =>
          cases resolved
          rw [List.find?_eq_none] at known fitting
          generalize m.imports = is at known fitting
          induction is with
          | nil => exact .nil
          | cons i is ih =>
              obtain ⟨x, linked⟩ := Option.ne_none_iff_exists'.mp fun none =>
                known i List.mem_cons_self (Option.isNone_iff_eq_none.mpr none)
              simp only [List.filterMap_cons, linked, Option.map_some, List.map_cons] at fitting ⊢
              refine .cons ⟨linked, by simpa using fitting _ List.mem_cons_self⟩ (ih ?_ ?_)
              · exact fun j among => known j (List.mem_cons_of_mem _ among)
              · exact fun p among => fitting p (List.mem_cons_of_mem _ among)

/-- Imports stand for what modules are linked against, and that is there. -/
theorem resolve_ok {m : Module} {imports : List Extern} (resolved : s.resolve links m = .ok imports)
    {x : Extern} (among : x ∈ imports) : Offered links x ∧ s.Has x := by
  have pairs := resolve_forall₂ resolved
  obtain ⟨k, inside, rfl⟩ := List.mem_iff_getElem.mp among
  obtain ⟨linked, fits⟩ := (List.forall₂_iff_get.mp pairs).2 k (pairs.length_eq ▸ inside) inside
  exact ⟨⟨_, _, linked⟩, fits_has fits⟩

/-- The addresses of each kind are those of the items of the kind. -/
theorem mem_addrs {xs : List Extern} (x : Extern) :
    x ∈ xs ↔ match x with
      | .func a => a ∈ funcAddrs xs
      | .table a => a ∈ tableAddrs xs
      | .memory a => a ∈ memoryAddrs xs
      | .global a => a ∈ globalAddrs xs := by
  induction xs with
  | nil => cases x <;> simp [funcAddrs, tableAddrs, memoryAddrs, globalAddrs]
  | cons y xs ih =>
      simp only [funcAddrs, tableAddrs, memoryAddrs, globalAddrs] at ih ⊢
      cases x <;> cases y <;> simp [ih]

section

variable {m : Module} {imports : List Extern} {i : Instance}
  {bodies : List (Wasm.FuncType × List Wasm.ValType × List Wasm.Instr)}

theorem Allocated.new (added : Allocated s s' m imports bodies i) :
    s'.instances[s.instances.size]? = some i := by
  rw [added.instances, Array.getElem?_push_size]

/-- Of the instances that a store has then, one is new. -/
theorem Allocated.instance_cases (added : Allocated s s' m imports bodies i) {k : Nat} {j : Instance}
    (found : s'.instances[k]? = some j) :
    k = s.instances.size ∧ j = i ∨ s.instances[k]? = some j := by
  rw [added.instances, Array.getElem?_push] at found
  split at found
  · next last =>
      cases found
      exact .inl ⟨last, rfl⟩
  · exact .inr found

/-- What an instance has it imports, or it came into the store with it. -/
theorem Allocated.items (added : Allocated s s' m imports bodies i) {x : Extern} (among : x ∈ i.items) :
    x ∈ imports ∨ ¬ s.Has x ∧ s'.Has x := by
  obtain ⟨new, globals, _, own⟩ := added.globals
  rw [Instance.items, added.ownFuncs, added.ownTables, added.ownMemories, own] at among
  simp only [List.mem_append, List.mem_map, Array.toList_append, Array.toList_range', List.mem_range'_1] at among
  rcases among with ((⟨a, imported | ⟨past, within⟩, rfl⟩ | ⟨a, imported | ⟨past, within⟩, rfl⟩) |
    ⟨a, imported | ⟨past, within⟩, rfl⟩) | ⟨a, imported | ⟨past, within⟩, rfl⟩
  · exact .inl ((mem_addrs (.func a)).mpr imported)
  · refine .inr ⟨Nat.not_lt.mpr past, ?_⟩
    rw [Store.Has, added.funcs, size_appendList, Machine.ownFuncs, List.length_map]
    exact within
  · exact .inl ((mem_addrs (.table a)).mpr imported)
  · refine .inr ⟨Nat.not_lt.mpr past, ?_⟩
    rw [Store.Has, added.tables, size_appendList, List.length_map]
    exact within
  · exact .inl ((mem_addrs (.memory a)).mpr imported)
  · refine .inr ⟨Nat.not_lt.mpr past, ?_⟩
    rw [Store.Has, added.memories, size_appendList, List.length_map]
    exact within
  · exact .inl ((mem_addrs (.global a)).mpr imported)
  · refine .inr ⟨Nat.not_lt.mpr past, ?_⟩
    rw [Store.Has, globals, Array.size_append]
    exact within

/-- What a store has it keeps when a module is added. -/
theorem Allocated.has (added : Allocated s s' m imports bodies i) {x : Extern} (has : s.Has x) : s'.Has x := by
  obtain ⟨new, globals, _, _⟩ := added.globals
  cases x with
  | func a =>
      rw [Store.Has, added.funcs, size_appendList]
      exact Nat.lt_add_right _ has
  | table a =>
      rw [Store.Has, added.tables, size_appendList]
      exact Nat.lt_add_right _ has
  | memory a =>
      rw [Store.Has, added.memories, size_appendList]
      exact Nat.lt_add_right _ has
  | global a =>
      rw [Store.Has, globals, Array.size_append]
      exact Nat.lt_add_right _ has

/-- An instance exports items of its own or that it imports. -/
theorem exported?_items {e : Wasm.Export} {p : String × Extern} (exported : exported? i e = some p) :
    p.2 ∈ i.items := by
  unfold exported? at exported
  split at exported
  all_goals
    obtain ⟨a, found, rfl⟩ := Option.map_eq_some_iff.mp exported
    have among := List.mem_of_getElem? (Array.getElem?_toList.trans found)
    simpa [Instance.items] using among

theorem Allocated.sound (added : Allocated s s' m imports bodies i)
    (present : ∀ x ∈ imports, s.Has x) (sound : Sound s) : Sound s' where
  items found x among := by
    rcases added.instance_cases found with ⟨_, rfl⟩ | earlier
    · rcases added.items among with imported | ⟨_, has⟩
      · exact added.has (present x imported)
      · exact has
    · exact added.has (sound.items earlier x among)
  exports found p among := by
    rcases added.instance_cases found with ⟨_, rfl⟩ | earlier
    · rw [added.exports] at among
      obtain ⟨e, _, exported⟩ := List.mem_filterMap.mp among
      exact exported?_items exported
    · exact sound.exports earlier p among

theorem Allocated.apart (added : Allocated s s' m imports bodies i)
    (offered : ∀ x ∈ imports, Offered links x) : Apart links s s' where
  has := added.has
  old {k j} found := by
    refine ⟨j.data, ?_⟩
    rw [added.instances, Array.getElem?_push, if_neg, found]
    exact Nat.ne_of_lt (Array.getElem?_eq_some_iff.mp found).1
  new found later x among has := by
    rcases added.instance_cases found with ⟨_, rfl⟩ | earlier
    · rcases added.items among with imported | ⟨fresh, _⟩
      · exact offered x imported
      · exact absurd has fresh
    · exact absurd (Array.getElem?_eq_some_iff.mp earlier).1 (Nat.not_lt.mpr later)

end

/-! ## Runs -/

namespace Apart

/-- Where no instance was added, none is new. -/
theorem of_size (has : ∀ {x : Extern}, s.Has x → s'.Has x) (size : s'.instances.size = s.instances.size)
    (old : ∀ {k : Nat} {i : Instance}, s.instances[k]? = some i →
      ∃ data, s'.instances[k]? = some { i with data }) : Apart links s s' where
  has := has
  old := old
  new found later := absurd (Array.getElem?_eq_some_iff.mp found).1 (by omega)

theorem withHost (s : Store) (host : Host) : Apart links s { s with host } :=
  of_size (fun {x} has => by cases x <;> exact has) rfl fun {_ i} found => ⟨i.data, found⟩

theorem refl (s : Store) : Apart links s s := withHost s s.host

theorem trans (h : Apart links s s') (h' : Apart links s' s'') : Apart links s s'' where
  has has := h'.has (h.has has)
  old found := by
    obtain ⟨_, found⟩ := h.old found
    obtain ⟨data, found⟩ := h'.old found
    exact ⟨data, found⟩
  new {k i} found later x among has := by
    by_cases there : k < s'.instances.size
    · have earlier := Array.getElem?_eq_getElem there
      obtain ⟨data, found'⟩ := h'.old earlier
      obtain rfl := Option.some.inj (found'.symm.trans found)
      exact h.new earlier later x among has
    · exact h'.new found (Nat.le_of_not_lt there) x among (h.has has)

theorem edit (e : Edit s s') : Apart links s s' := by
  cases e with
  | memory =>
      refine of_size (fun {x} has => ?_) rfl fun {_ i} found => ⟨i.data, found⟩
      cases x <;> simpa [Store.Has] using has
  | table =>
      refine of_size (fun {x} has => ?_) rfl fun {_ i} found => ⟨i.data, found⟩
      cases x <;> simpa [Store.Has] using has
  | global =>
      refine of_size (fun {x} has => ?_) rfl fun {_ i} found => ⟨i.data, found⟩
      cases x <;> simpa [Store.Has] using has
  | data inst segment =>
      refine of_size (fun {x} has => by cases x <;> exact has) (by simp [Frame.dataDrop])
        fun {k i} found => ?_
      rw [Frame.dataDrop]
      dsimp only
      rw [Array.getElem?_modify, found]
      split
      · exact ⟨_, rfl⟩
      · exact ⟨i.data, rfl⟩

end Apart

theorem Sound.of_apart (sound : Sound s) (apart : Apart links s s')
    (size : s'.instances.size = s.instances.size) : Sound s' := by
  have same {k : Nat} {i : Instance} (found : s'.instances[k]? = some i) :
      ∃ j data, s.instances[k]? = some j ∧ i = { j with data } := by
    have there : k < s.instances.size := size ▸ (Array.getElem?_eq_some_iff.mp found).1
    have earlier := Array.getElem?_eq_getElem there
    obtain ⟨data, found'⟩ := apart.old earlier
    exact ⟨_, data, earlier, Option.some.inj (found.symm.trans found')⟩
  refine ⟨fun found x among => ?_, fun found p among => ?_⟩
  · obtain ⟨j, data, earlier, rfl⟩ := same found
    exact apart.has (sound.items earlier x among)
  · obtain ⟨j, data, earlier, rfl⟩ := same found
    exact sound.exports earlier p among

theorem Sound.withHost (sound : Sound s) (host : Host) : Sound { s with host } :=
  sound.of_apart (Apart.withHost s host : Apart .empty s _) rfl

theorem Edit.size_instances (e : Edit s s') : s'.instances.size = s.instances.size := by
  cases e with
  | memory => rfl
  | table => rfl
  | global => rfl
  | data => simp [Frame.dataDrop]

/-- Imports that were resolved against the complete definitions. -/
theorem Act.allocate_offered {env : Environment} (complete : env.links = some links) {m : Module}
    {imports : List Extern}
    (resolved : ∃ links, (∀ complete, env.links = some complete → complete = links) ∧
      s.resolve links m = .ok imports) : ∀ x ∈ imports, Offered links x := by
  obtain ⟨links', agree, resolved⟩ := resolved
  obtain rfl := agree links complete
  exact fun x among => (resolve_ok resolved among).1

theorem apart_lasting {env : Environment} (complete : env.links = some links) :
    Session.Lasting env (Apart links) where
  refl := .refl
  trans := .trans
  act act := by
    cases act with
    | edit e => exact .edit e
    | allocate made resolved =>
        exact (allocate_eq_ok made).apart (Act.allocate_offered complete resolved)
    | capability | issue | answer => exact .withHost _ _
  failed s _ _ := .withHost s _
  entryless s := .withHost s _
  insert s _ _ _ _ := .withHost s _
  take s _ := .withHost s _

theorem sound_lasting (env : Environment) : Session.Lasting env fun s s' => Sound s → Sound s' where
  refl _ sound := sound
  trans h h' sound := h' (h sound)
  act act sound := by
    cases act with
    | edit e => exact sound.of_apart (Apart.edit e : Apart .empty _ _) e.size_instances
    | allocate made resolved =>
        obtain ⟨_, _, resolved⟩ := resolved
        exact (allocate_eq_ok made).sound (fun x among => (resolve_ok resolved among).2) sound
    | capability | issue | answer => exact sound.withHost _
  failed _ _ _ sound := sound.withHost _
  entryless _ sound := sound.withHost _
  insert _ _ _ _ _ sound := sound.withHost _
  take _ _ sound := sound.withHost _

/-! ## New instances -/

/-- A payload that was brought to life up to its start function. -/
inductive Instantiates (s : Store) (links : Links) (payload : Array UInt8) : Ready → Store → Prop
  | intro {m : Module} {imports : List Extern}
      {bodies : List (Wasm.FuncType × List Wasm.ValType × List Wasm.Instr)} {i : Instance} {t s' : Store}
      (read : Module.ofBytes? payload.toList = some m) (nested : nestedBodies? m = some bodies)
      (resolved : s.resolve links m = .ok imports) (allocated : Allocated s t m imports bodies i)
      (copied : Edits t s') :
      Instantiates s links payload ⟨s.instances.size, m.start.bind (i.funcs[·]?)⟩ s'

theorem instantiate_ends {payload : Array UInt8} {ready : Ready}
    (made : s.instantiate links payload = (.ok ready, s')) : Instantiates s links payload ready s' := by
  unfold Store.instantiate at made
  split at made
  · cases made
  · next m read =>
      split at made
      · cases made
      · next nested =>
          split at made
          · cases made
          · next resolved =>
              split at made
              · cases made
              · next t i allocated =>
                  have copied := copySegments_edits t m i
                  split at made
                  · cases made
                  · next segments =>
                      rw [segments] at copied
                      cases made
                      exact .intro read nested resolved (allocate_eq_ok allocated) copied

/-- What came into the store with an instance no other instance ever has. -/
theorem Allocated.exclusive {t u : Store} {m : Module} {imports : List Extern} {i j : Instance}
    {bodies : List (Wasm.FuncType × List Wasm.ValType × List Wasm.Instr)}
    (added : Allocated s t m imports bodies i) (offered : ∀ x ∈ imports, Offered links x)
    (sound : Sound s) (present : ∀ x, Offered links x → s.Has x) (later : Apart links t u) {k : Nat}
    (other : k ≠ s.instances.size) (found : u.instances[k]? = some j) {x : Extern} (own : x ∈ i.items)
    (new : x ∉ imports) : x ∉ j.items := by
  obtain ⟨fresh, has⟩ := (added.items own).resolve_left new
  intro among
  have size : t.instances.size = s.instances.size + 1 := by rw [added.instances, Array.size_push]
  by_cases before : k < s.instances.size
  · have earlier := Array.getElem?_eq_getElem before
    obtain ⟨data, found'⟩ := ((added.apart offered).trans later).old earlier
    obtain rfl := Option.some.inj (found'.symm.trans found)
    exact fresh (sound.items earlier x among)
  · exact fresh (present x (later.new found (by omega) x among has))

end GuestHost.Machine
