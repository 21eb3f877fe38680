import GuestHost.Proofs.Support.Copying

/-! What the functions that hand out memory come to whether or not there is room. The end of a
block is a word, and so it may have gone round; the test that compares it with the size of the
memory does not know. -/

namespace GuestHost.Support

open Machine

/-! ## Memory -/

/-- The memory has no other bound than that on its pages. -/
structure Paged (m : Memory) : Prop where
  unbounded : m.max = none
  few : m.pages ≤ 65536

/-- The memory with all the pages that it may have. -/
def filled (m : Memory) : Memory := { m with pages := 65536 }

/-- The memory can grow until a word counts as inside. The size of a memory with all its pages
counts as zero. -/
def Attains (m : Memory) (last : UInt32) : Prop :=
  if m.pages ≤ 65535 then last.toNat ≤ limit else last = 0

instance (m : Memory) (last : UInt32) : Decidable (Attains m last) :=
  inferInstanceAs (Decidable (if m.pages ≤ 65535 then last.toNat ≤ limit else last = 0))

namespace Paged

variable {m : Memory}

theorem bound (h : Paged m) : m.bound = 65536 := by
  rw [Memory.bound, h.unbounded]
  rfl

theorem filled (h : Paged m) : Paged (filled m) := ⟨h.unbounded, Nat.le_refl _⟩

theorem size_le_filled (h : Paged m) : m.size ≤ (Support.filled m).size := Nat.mul_le_mul_right _ h.few

theorem reaching (h : Paged m) (last : UInt32) : Paged (reaching m last.toNat) where
  unbounded := h.unbounded
  few := by
    have few := h.few
    have below := last.toNat_lt
    unfold Support.reaching
    dsimp only
    omega

theorem put (h : Paged m) (a : Nat) (bs : List UInt8) : Paged (m.put a bs) where
  unbounded := by rw [Memory.put_max, h.unbounded]
  few := by
    rw [Memory.put_pages]
    exact h.few

/-- What can never be attained is not yet inside. -/
theorem not_le_size (h : Paged m) {last : UInt32} (beyond : ¬ Attains m last) :
    ¬ last ≤ UInt32.ofNat m.pages <<< (16 : UInt32) := by
  by_cases spare : m.pages ≤ 65535
  · rw [Attains, if_pos spare] at beyond
    rw [UInt32.le_iff_toNat_le, Work.toNat_shiftLeft_pages spare]
    exact fun le => beyond (Nat.le_trans le (Nat.mul_le_mul_right 65536 spare))
  · have all : m.pages = 65536 := Nat.le_antisymm h.few (Nat.lt_of_not_le spare)
    have none : UInt32.ofNat 65536 <<< (16 : UInt32) = 0 := by decide
    rw [Attains, if_neg spare] at beyond
    rw [all, none]
    exact fun le => beyond (UInt32.le_zero_iff.mp le)

end Paged

namespace Work

variable {x : Space} {last : UInt32}

theorem grow_more (h : Paged x.memory) (spare : x.memory.pages ≤ 65535) : grow x = (.ok (), x.onePageMore) := by
  rw [grow, Memory.grow?, if_pos (by rw [h.bound]; omega)]
  rfl

theorem grow_stuck (h : Paged x.memory) (full : ¬ x.memory.pages ≤ 65535) :
    grow x = (.error (.trap .unreachable), x) := by
  rw [grow, Memory.grow?, if_neg (by rw [h.bound]; omega)]

/-- The loop takes every page that there is before it gives up. -/
theorem reachWithin_beyond (n : Nat) (x : Space) (h : Paged x.memory) (beyond : ¬ Attains x.memory last)
    (spare : x.memory.bound - x.memory.pages ≤ n) :
    reachWithin last n x = (.error (.trap .unreachable), { x with memory := filled x.memory }) := by
  induction n generalizing x with
  | zero =>
      have full : x.memory.pages = 65536 := by
        have bound := h.bound
        have few := h.few
        omega
      rw [reachWithin, bind_eq (show Work.size x = (.ok _, x) from rfl), if_neg (h.not_le_size beyond),
        bind_error (grow_stuck h (by omega)), filled, ← full]
  | succ n ih =>
      rw [reachWithin, bind_eq (show Work.size x = (.ok _, x) from rfl), if_neg (h.not_le_size beyond)]
      by_cases more : x.memory.pages ≤ 65535
      · have bound := h.bound
        have pages : x.onePageMore.memory.pages = x.memory.pages + 1 := rfl
        have paged : Paged x.onePageMore.memory := ⟨h.unbounded, by omega⟩
        have still : ¬ Attains x.onePageMore.memory last := by
          rw [Attains, if_pos more] at beyond
          rw [Attains]
          split
          · exact beyond
          · rintro rfl
            exact beyond (Nat.zero_le _)
        rw [bind_eq (grow_more h more), ih x.onePageMore paged still (by rw [paged.bound]; omega)]
        rfl
      · have full : x.memory.pages = 65536 := Nat.le_antisymm h.few (Nat.lt_of_not_le more)
        rw [bind_error (grow_stuck h more), filled, ← full]

/-- Memory is made to reach whatever counts as inside in the end. -/
theorem reach_attained (h : Paged x.memory) (attained : Attains x.memory last) :
    reach last x = (.ok (), { x with memory := reaching x.memory last.toNat }) := by
  by_cases spare : x.memory.pages ≤ 65535
  · rw [Attains, if_pos spare] at attained
    exact reach_eq ⟨h.unbounded, spare⟩ attained
  · rw [Attains, if_neg spare] at attained
    have same : reaching x.memory last.toNat = x.memory := by
      rw [attained]
      exact reaching_of_le (Nat.zero_le _)
    rw [reach, same, attained]
    exact reachWithin_inside _ UInt32.zero_le

theorem reach_beyond (h : Paged x.memory) (beyond : ¬ Attains x.memory last) :
    reach last x = (.error (.trap .unreachable), { x with memory := filled x.memory }) :=
  reachWithin_beyond _ x h beyond (Nat.le_refl _)

end Work

/-! ## Blocks -/

namespace Space

/-- What is true of a space whatever was asked of it. -/
structure Bounded (x : Space) : Prop where
  paged : Paged x.memory
  top : x.top.toNat ≤ limit
  inside : x.top.toNat ≤ x.memory.size

/-- The word that is taken for the end of a block. -/
def stop (x : Space) (n : Nat) : UInt32 := UInt32.ofNat (x.next + n)

/-- A block of a size is handed out, be it there or not. -/
def Grants (x : Space) (n : Nat) : Prop := Attains x.memory (x.stop n)

instance (x : Space) (n : Nat) : Decidable (x.Grants n) := inferInstanceAs (Decidable (Attains _ _))

/-- The space after a block was handed out. -/
def advanced (x : Space) (n : Nat) : Space where
  memory := reaching x.memory (x.stop n).toNat
  top := x.stop n
  buffers := x.buffers

/-- The space after there was no room for a block. -/
def exhausted (x : Space) : Space := { x with memory := filled x.memory }

variable {x : Space} {n : Nat}

theorem toNat_stop (x : Space) (n : Nat) : (x.stop n).toNat = (x.next + n) % UInt32.size := UInt32.toNat_ofNat'

theorem toNat_stop_of_lt (h : x.next + n < UInt32.size) : (x.stop n).toNat = x.next + n := by
  rw [toNat_stop, Nat.mod_eq_of_lt h]

namespace Bounded

theorem fresh (buffers : Buffers) : (Space.fresh buffers).Bounded where
  paged := ⟨rfl, show 1 ≤ 65536 by decide⟩
  top := show 16 ≤ limit by decide
  inside := show 16 ≤ 1 * Wasm.pageSize by decide

theorem next_le (h : x.Bounded) : x.next ≤ limit := by
  have top := h.top
  unfold limit at *
  unfold next roundUp
  omega

theorem toNat_next (h : x.Bounded) : (UInt32.ofNat x.next).toNat = x.next := toNat_ofNat_of_le h.next_le

theorem aligned_add (h : x.Bounded) {size : UInt32} (same : size = UInt32.ofNat n) :
    Work.aligned x.top + size = x.stop n := by
  have start : (Work.aligned x.top).toNat = x.next := toNat_aligned h.next_le
  rw [stop, UInt32.ofNat_add, same, ← start, UInt32.ofNat_toNat]

theorem advanced (h : x.Bounded) (granted : x.Grants n) : (x.advanced n).Bounded where
  paged := h.paged.reaching _
  top := by
    change (x.stop n).toNat ≤ limit
    rw [Grants, Attains] at granted
    split at granted
    · exact granted
    · rw [granted]
      exact Nat.zero_le _
  inside := le_size_reaching _ _

theorem exhausted (h : x.Bounded) : x.exhausted.Bounded where
  paged := h.paged.filled
  top := h.top
  inside := Nat.le_trans h.inside h.paged.size_le_filled

/-- A block begins where memory has not ended yet. -/
theorem next_le_size (h : x.Bounded) : x.next ≤ x.memory.size := by
  have inside := h.inside
  unfold next roundUp
  unfold Memory.size Wasm.pageSize at *
  omega

end Bounded

end Space

namespace Work

open Space

variable {x : Space} {n : Nat} {size : UInt32}

theorem alloc_granted (h : x.Bounded) (same : size = UInt32.ofNat n) (granted : x.Grants n) :
    alloc size x = (.ok (UInt32.ofNat x.next), x.advanced n) := by
  have start : UInt32.ofNat x.next = aligned x.top := by
    rw [next, ← toNat_aligned h.next_le, UInt32.ofNat_toNat]
  rw [alloc, bind_eq (show Work.top x = (.ok x.top, x) from rfl), h.aligned_add same,
    bind_eq (reach_attained h.paged granted), start]
  rfl

theorem alloc_denied (h : x.Bounded) (same : size = UInt32.ofNat n) (denied : ¬ x.Grants n) :
    alloc size x = (.error (.trap .unreachable), x.exhausted) := by
  rw [alloc, bind_eq (show Work.top x = (.ok x.top, x) from rfl), h.aligned_add same,
    bind_error (reach_beyond h.paged denied)]
  rfl

theorem length_add (length : UInt32) : length + 8 = UInt32.ofNat (8 + length.toNat) := by
  rw [UInt32.ofNat_add, UInt32.ofNat_toNat, UInt32.add_comm]
  rfl

theorem four_add (length : UInt32) : 4 + length <<< (2 : UInt32) = UInt32.ofNat (4 + 4 * length.toNat) := by
  have four : (4 : UInt32).toNat = 4 := rfl
  have two : (2 : UInt32).toNat % 32 = 2 := rfl
  apply UInt32.toNat_inj.mp
  rw [UInt32.toNat_add, UInt32.toNat_shiftLeft, four, two, Nat.shiftLeft_eq, UInt32.toNat_ofNat']
  omega

theorem box_denied (h : x.Bounded) {tag length : UInt32} (denied : ¬ x.Grants (8 + length.toNat)) :
    box tag length x = (.error (.trap .unreachable), x.exhausted) := by
  rw [box, bind_error (alloc_denied h (length_add length) denied)]

theorem boxWord_denied (h : x.Bounded) {tag : UInt32} {n : UInt64} (denied : ¬ x.Grants 16) :
    boxWord tag n x = (.error (.trap .unreachable), x.exhausted) := by
  rw [boxWord, bind_error (box_denied h (show ¬ x.Grants (8 + (8 : UInt32).toNat) from denied))]

theorem arrayCreate_denied (h : x.Bounded) {length : UInt32} (denied : ¬ x.Grants (4 + 4 * length.toNat)) :
    arrayCreate length x = (.error (.trap .unreachable), x.exhausted) := by
  rw [arrayCreate, bind_error (alloc_denied h (four_add length) denied)]

theorem write_inside {a : Nat} {bs : List UInt8} (inside : a + bs.length ≤ x.memory.size) :
    write a bs x = (.ok (), { x with memory := x.memory.put a bs }) := by
  rw [write, Memory.write?, if_pos inside]

theorem write_outside {a : Nat} {bs : List UInt8} (outside : ¬ a + bs.length ≤ x.memory.size) :
    write a bs x = (.error (.trap .memoryBounds), x) := by
  rw [write, Memory.write?, if_neg outside]

/-- A box that is handed out is headed if it is there. -/
theorem box_granted (h : x.Bounded) {tag length : UInt32} (granted : x.Grants (8 + length.toNat)) :
    ∃ m : Memory, m.size = (x.advanced (8 + length.toNat)).memory.size ∧
      box tag length x =
        (if x.next + 8 ≤ m.size then .ok (UInt32.ofNat x.next) else .error (.trap .memoryBounds),
          { x.advanced (8 + length.toNat) with memory := m }) := by
  have start := h.toNat_next
  have handed := alloc_granted h (length_add length) granted
  generalize x.advanced (8 + length.toNat) = y at handed ⊢
  rw [box, bind_eq handed, start]
  -- A page holds a whole number of words of eight bytes, and so the header has both parts or none.
  have whole : x.next + 4 ≤ y.memory.size ↔ x.next + 8 ≤ y.memory.size := by
    have multiple := roundUp_mod x.top.toNat
    rw [Memory.size, Wasm.pageSize, next]
    omega
  by_cases inside : x.next + 8 ≤ y.memory.size
  · refine ⟨(y.memory.put x.next (wordBytes 4 tag.toNat)).put (x.next + 4) (wordBytes 4 length.toNat),
      by rw [Memory.size_put, Memory.size_put], ?_⟩
    rw [bind_eq (write_inside (by rw [length_wordBytes]; exact whole.mpr inside)),
      bind_eq (write_inside (by rw [length_wordBytes, Memory.size_put]; exact inside)), Memory.size_put,
      Memory.size_put, if_pos inside]
    rfl
  · refine ⟨y.memory, rfl, ?_⟩
    rw [bind_error (write_outside (by rw [length_wordBytes]; exact fun le => inside (whole.mp le))), if_neg inside]

theorem arrayCreate_granted (h : x.Bounded) {length : UInt32} (granted : x.Grants (4 + 4 * length.toNat)) :
    ∃ m : Memory, m.size = (x.advanced (4 + 4 * length.toNat)).memory.size ∧
      arrayCreate length x =
        (if x.next + 4 ≤ m.size then .ok (UInt32.ofNat x.next) else .error (.trap .memoryBounds),
          { x.advanced (4 + 4 * length.toNat) with memory := m }) := by
  have start := h.toNat_next
  have handed := alloc_granted h (four_add length) granted
  generalize x.advanced (4 + 4 * length.toNat) = y at handed ⊢
  rw [arrayCreate, bind_eq handed, start]
  by_cases inside : x.next + 4 ≤ y.memory.size
  · refine ⟨y.memory.put x.next (wordBytes 4 length.toNat), Memory.size_put _ _ _, ?_⟩
    rw [bind_eq (write_inside (by rw [length_wordBytes]; exact inside)), Memory.size_put, if_pos inside]
    rfl
  · refine ⟨y.memory, rfl, ?_⟩
    rw [bind_error (write_outside (by rw [length_wordBytes]; exact inside)), if_neg inside]

/-- Nothing that writes to memory or hands it out leads out of bounds. -/
theorem frame_bounded : Frame fun x y => x.Bounded → y.Bounded where
  refl := fun _ h => h
  trans := fun first second h => second (first h)
  write := by
    intro a bs x h
    rw [write]
    split
    · next found =>
        rw [Memory.write?] at found
        split at found
        · cases found
          exact ⟨h.paged.put a bs, h.top, by rw [Memory.size_put]; exact h.inside⟩
        · cases found
    · exact h
  alloc := by
    intro n x h
    have same : n = UInt32.ofNat n.toNat := UInt32.ofNat_toNat.symm
    by_cases granted : x.Grants n.toNat
    · rw [alloc_granted h same granted]
      exact h.advanced granted
    · rw [alloc_denied h same granted]
      exact h.exhausted

end Work

theorem Call.bounded {x : Space} (h : x.Bounded) (c : Call) : (c.work x).2.Bounded := by
  by_cases copies : ∃ v, c = .toHostString v
  · obtain ⟨v, rfl⟩ := copies
    have beside := Work.toHostString_beside v x
    exact ⟨beside.memory ▸ h.paged, beside.top ▸ h.top, beside.memory ▸ beside.top ▸ h.inside⟩
  · exact Work.frame_bounded.call (not_exists.mp copies) x h

end GuestHost.Support
