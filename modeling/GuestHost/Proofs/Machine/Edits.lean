import GuestHost.Machine.Step
import GuestHost.Proofs.Machine.Bytes
import Mathlib.Logic.Relation

/-! Changes to items that a store already has. Operators and active segments make no
others: they add nothing, and they leave the host alone. -/

namespace GuestHost.Machine

open Relation (ReflTransGen)

/-- A change to one item: a memory keeps its bound and never shrinks, a table keeps its
size, a global its type, and of an instance only the data left to copy from changes. -/
inductive Edit (s : Store) : Store → Prop
  | memory {a : Nat} {m m' : Memory} (item : s.memories[a]? = some m) (max : m'.max = m.max)
      (grows : m.pages ≤ m'.pages) (bound : m'.pages = m.pages ∨ m'.pages ≤ m.bound) :
      Edit s { s with memories := s.memories.setIfInBounds a m' }
  | table {a : Nat} {t t' : Table} (item : s.tables[a]? = some t) (max : t'.max = t.max)
      (size : t'.entries.size = t.entries.size) :
      Edit s { s with tables := s.tables.setIfInBounds a t' }
  | global {a : Nat} {g : Global} {v : Val} (item : s.globals[a]? = some g) (type : g.value.type = v.type) :
      Edit s { s with globals := s.globals.modify a fun g => { g with value := v } }
  | data (inst segment : Nat) : Edit s (Frame.dataDrop s inst segment)

/-- A memory has the limit that it had before a change, and no pages past its bound but those
that it had. -/
theorem Edit.memory_before {s s' : Store} (e : Edit s s') {i : Nat} {m' : Memory}
    (found : s'.memories[i]? = some m') :
    ∃ m, s.memories[i]? = some m ∧ m'.max = m.max ∧ (m'.pages = m.pages ∨ m'.pages ≤ m.bound) := by
  cases e with
  | @memory a m m₁ item max grows bound =>
      rw [Array.getElem?_setIfInBounds] at found
      split at found
      · next same =>
          subst same
          split at found
          · cases found
            exact ⟨m, item, max, bound⟩
          · cases found
      · exact ⟨m', found, rfl, .inl rfl⟩
  | table | global | data => exact ⟨m', found, rfl, .inl rfl⟩

/-- Any number of changes to items, in order. -/
abbrev Edits : Store → Store → Prop := ReflTransGen Edit

/-- No such change concerns the host. -/
theorem Edit.host_eq {s s' : Store} (h : Edit s s') : s'.host = s.host := by
  cases h with
  | memory => rfl
  | table => rfl
  | global => rfl
  | data => rfl

theorem Edits.host_eq {s s' : Store} (h : Edits s s') : s'.host = s.host := by
  induction h with
  | refl => rfl
  | tail _ last ih => exact last.host_eq.trans ih

/-! ## Memories -/

theorem Memory.write?_eq_some {m m' : Memory} {a : Nat} {bs : List UInt8}
    (h : m.write? a bs = some m') : a + bs.length ≤ m.size ∧ m' = m.put a bs := by
  unfold Memory.write? at h
  split at h
  · next hs => exact ⟨hs, (Option.some.inj h).symm⟩
  · cases h

theorem Memory.grow?_eq_some {m m' : Memory} {n : Nat} (h : m.grow? n = some m') :
    m.pages + n ≤ m.bound ∧ m' = { m with pages := m.pages + n } := by
  unfold Memory.grow? at h
  split at h
  · next hs => exact ⟨hs, (Option.some.inj h).symm⟩
  · cases h

/-- Writing bytes is a change to one item. -/
theorem Edit.write {s : Store} {a addr : Nat} {m m' : Memory} {bs : List UInt8}
    (item : s.memories[a]? = some m) (h : m.write? addr bs = some m') :
    Edit s { s with memories := s.memories.setIfInBounds a m' } := by
  obtain ⟨_, rfl⟩ := Memory.write?_eq_some h
  exact .memory item (by simp) (by simp) (by simp)

theorem Memory.store_eq_ok {m m' : Memory} {k : Wasm.Store} {a : Nat} {v : Val}
    (h : m.store k a v = .ok m') : ∃ bs, stored? k v = some bs ∧ m.write? a bs = some m' := by
  unfold Memory.store at h
  split at h
  · cases h
  · next bs hs =>
      split at h
      · next hw => exact ⟨bs, hs, by rw [hw, Except.ok.inj h]⟩
      · cases h

/-! ## Operators -/

/-- Replacing a memory by a function of it that only writes is a change to one item. -/
theorem withMemory_edit {s s' : Store} {inst : Nat} {g : Memory → Except Trap Memory}
    (hg : ∀ m m', g m = .ok m' → ∃ a bs, m.write? a bs = some m')
    (h : Frame.withMemory s inst g = .ok s') : Edit s s' := by
  unfold Frame.withMemory at h
  split at h
  · cases h
  · split at h
    · cases h
    · next m hm =>
        split at h
        · next m' hg' =>
            obtain ⟨a, bs, hw⟩ := hg m m' hg'
            cases h
            exact .write hm hw
        · cases h

theorem store_edit {f f' : Frame} {s s' : Store} {k : Wasm.Store} {m : Wasm.MemArg}
    (h : f.store s k m = .ok (f', s')) : Edit s s' := by
  unfold Frame.store at h
  split at h
  · split at h
    · next hw =>
        cases h
        refine withMemory_edit ?_ hw
        intro m m' hm
        obtain ⟨bs, _, hb⟩ := Memory.store_eq_ok hm
        exact ⟨_, bs, hb⟩
    · cases h
  · cases h

theorem grow_edit {f f' : Frame} {s s' : Store} (h : f.grow s = .ok (f', s')) :
    s' = s ∨ Edit s s' := by
  unfold Frame.grow at h
  split at h
  · split at h
    · cases h
    · next m hm =>
        split at h
        · cases h
          exact .inl rfl
        · next grown hg =>
            cases h
            obtain ⟨hb, rfl⟩ := Memory.grow?_eq_some hg
            exact .inr (.memory hm rfl (Nat.le_add_right _ _) (.inr hb))
  · cases h

theorem memoryInit_edit {f f' : Frame} {s s' : Store} {segment : Nat}
    (h : f.memoryInit s segment = .ok (f', s')) : Edit s s' := by
  unfold Frame.memoryInit at h
  split at h
  · split at h
    · dsimp only at h
      split at h
      · next hw =>
          cases h
          refine withMemory_edit ?_ hw
          intro m m' hm
          split at hm
          · next hb => exact ⟨_, _, by rw [hb, Except.ok.inj hm]⟩
          · cases hm
      · cases h
    · cases h
  · cases h

theorem tableSet_edit {f f' : Frame} {s s' : Store} {table : Nat}
    (h : f.tableSet s table = .ok (f', s')) : Edit s s' := by
  unfold Frame.tableSet at h
  split at h
  · split at h
    · cases h
    · next t ht =>
        split at h
        · cases h
          exact .table ht rfl (by simp)
        · cases h
  · cases h

theorem globalSet_edit {f f' : Frame} {s s' : Store} {i : Nat}
    (h : f.globalSet s i = .ok (f', s')) : Edit s s' := by
  unfold Frame.globalSet at h
  split at h
  · split at h
    · next same =>
        cases h
        obtain ⟨g, item, type⟩ := (Option.any_eq_true _ _).mp same
        exact .global item (beq_iff_eq.mp type)
    · cases h
  · cases h

/-- An operator changes one item of the store, or none. -/
theorem plain_edit {f f' : Frame} {s s' : Store} {p : Wasm.Plain}
    (h : f.plain s p = .ok (f', s')) : s' = s ∨ Edit s s' := by
  unfold Frame.plain at h
  split at h
  · exact .inr (store_edit h)
  · exact grow_edit h
  · exact .inr (memoryInit_edit h)
  · cases h
    exact .inr (.data _ _)
  · exact .inr (tableSet_edit h)
  · exact .inr (globalSet_edit h)
  · split at h
    · cases h
      exact .inl rfl
    · cases h

/-! ## Segments -/

@[simp] theorem Table.fill_max (t : Table) (first : Nat) (rs : List (Option Nat)) :
    (t.fill first rs).max = t.max := by
  induction rs generalizing t first with
  | nil => rfl
  | cons r rs ih => rw [Table.fill, ih]

@[simp] theorem Table.fill_size (t : Table) (first : Nat) (rs : List (Option Nat)) :
    (t.fill first rs).entries.size = t.entries.size := by
  induction rs generalizing t first with
  | nil => rfl
  | cons r rs ih => rw [Table.fill, ih, Array.size_setIfInBounds]

theorem copyElem_edit {s s' : Store} {i : Instance} {e : Wasm.Elem}
    (h : copyElem s i e = .ok s') : s' = s ∨ Edit s s' := by
  unfold copyElem at h
  split at h
  · split at h
    · cases h
    · cases h
    · split at h
      · cases h
      · next t ht =>
          split at h
          · cases h
            exact .inr (.table ht (by simp) (by simp))
          · cases h
  · cases h
    exact .inl rfl

theorem copyData_edit {s s' : Store} {i : Instance} {d : Wasm.Data}
    (h : copyData s i d = .ok s') : s' = s ∨ Edit s s' := by
  unfold copyData at h
  split at h
  · split at h
    · cases h
    · cases h
    · split at h
      · cases h
      · next m hm =>
          split at h
          · next hw =>
              cases h
              exact .inr (.write hm hw)
          · cases h
  · cases h
    exact .inl rfl

theorem copyAll_edits {α : Type} {copy : Store → α → Except Trap Store}
    (hc : ∀ s x s', copy s x = .ok s' → s' = s ∨ Edit s s') (s : Store) (xs : List α) :
    Edits s (copyAll copy s xs).2 := by
  induction xs generalizing s with
  | nil => exact .refl
  | cons x xs ih =>
      rw [copyAll]
      split
      · next s' h =>
          rcases hc s x s' h with rfl | he
          · exact ih s'
          · exact .head he (ih s')
      · exact .refl

/-- Copying segments only edits items, even if it stops half-way. -/
theorem copySegments_edits (s : Store) (m : Wasm.Module) (i : Instance) :
    Edits s (s.copySegments m i).2 := by
  have elems : Edits s (copyAll (fun s e => copyElem s i e) s m.elems).2 :=
    copyAll_edits (fun _ _ _ h => copyElem_edit h) s m.elems
  unfold Store.copySegments
  split
  · next h => simpa only [h] using elems
  · next s' h =>
      simp only [h] at elems
      exact elems.trans (copyAll_edits (fun _ _ _ h => copyData_edit h) s' m.data)

end GuestHost.Machine
