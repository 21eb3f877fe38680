import GuestHost.Proofs.Support.Requests

/-! What a refused request does to the requests after it. It leaves the memory with all its pages,
and the size of such a memory is no word: it counts as zero. From then on nothing is inside. -/

namespace GuestHost.Support

open Machine
open Relation (ReflTransGen)
open Wasm (maxPages)

/-! ## Memory with all its pages -/

namespace Space

variable {x y : Space} {n : Nat}

/-- Memory has all the pages that it may have. -/
def Full (x : Space) : Prop := x.memory.pages = maxPages

theorem grants_iff (spare : x.memory.pages < maxPages) : x.Grants n ↔ (x.next + n) % UInt32.size ≤ limit := by
  have few : x.memory.pages ≤ 65535 := Nat.le_of_lt_succ spare
  rw [Grants, Attains, if_pos few, toNat_stop]

/-- Nothing is inside a memory whose size counts as zero, unless it ends at zero itself. -/
theorem Full.grants_iff (full : x.Full) : x.Grants n ↔ (x.next + n) % UInt32.size = 0 := by
  have all : ¬ x.memory.pages ≤ 65535 := by
    rw [full]
    decide
  rw [Grants, Attains, if_neg all, ← toNat_stop, ← UInt32.toNat_inj]
  rfl

theorem full_exhausted (x : Space) : x.exhausted.Full := rfl

/-- A block that fits into the memory that there is ends where a word can tell. -/
theorem stop_of_fits (spare : x.memory.pages < maxPages)
    (fits : x.next + n ≤ x.memory.size) : (x.next + n) % UInt32.size = x.next + n ∧ x.next + n ≤ limit := by
  have few : x.memory.pages ≤ 65535 := Nat.le_of_lt_succ spare
  have size : x.memory.size ≤ limit := Nat.mul_le_mul_right 65536 few
  have within : x.next + n ≤ limit := Nat.le_trans fits size
  refine ⟨Nat.mod_eq_of_lt (Nat.lt_of_le_of_lt within ?_), within⟩
  decide

end Space

namespace Work

open Space

/-- Nothing takes pages away. -/
theorem frame_growing : Frame fun x y => x.Bounded → y.Bounded ∧ x.memory.pages ≤ y.memory.pages where
  refl := fun _ h => ⟨h, Nat.le_refl _⟩
  trans := by
    intro x y z first second h
    obtain ⟨h', grown⟩ := first h
    obtain ⟨h'', grown'⟩ := second h'
    exact ⟨h'', Nat.le_trans grown grown'⟩
  write := by
    intro a bs x h
    refine ⟨frame_bounded.write a bs x h, ?_⟩
    rw [write]
    split
    · next found =>
        obtain ⟨-, rfl⟩ := Memory.write?_eq_some found
        exact Nat.le_of_eq (by rw [Memory.put_pages])
    · exact Nat.le_refl _
  alloc := by
    intro n x h
    refine ⟨frame_bounded.alloc n x h, ?_⟩
    have same : n = UInt32.ofNat n.toNat := UInt32.ofNat_toNat.symm
    by_cases granted : x.Grants n.toNat
    · rw [alloc_granted h same granted]
      exact Nat.le_max_left _ _
    · rw [alloc_denied h same granted]
      exact h.paged.few

end Work

/-- Once memory has all its pages, it keeps them whatever is called. -/
theorem Call.full {x : Space} (h : x.Bounded) (full : x.Full) (c : Call) : (c.work x).2.Full := by
  by_cases copies : ∃ v, c = .toHostString v
  · obtain ⟨v, rfl⟩ := copies
    have same := (Work.toHostString_beside v x).memory
    exact (congrArg Memory.pages same).trans full
  · obtain ⟨h', grown⟩ := Work.frame_growing.call (not_exists.mp copies) x h
    rw [Space.Full] at full ⊢
    rw [full] at grown
    exact Nat.le_antisymm h'.paged.few grown

/-! ## Requests after a refused one -/

variable {env : Environment} {inst : Nat} {s s' s'' : Store}

/-- A call comes to one result and leaves one store. -/
theorem Serves.unique {c : Call} {r r' : Except Failure (List Val)} (h : Serves env inst s c r s')
    (h' : Serves env inst s c r' s'') : r = r' ∧ s' = s'' := by
  obtain ⟨func, exported, n, ended⟩ := h
  obtain ⟨func', exported', n', ended'⟩ := h'
  cases exported.symm.trans exported'
  have same := run_unique (ended n (Nat.le_refl n)) (ended' n' (Nat.le_refl n'))
  exact ⟨congrArg Prod.fst same, congrArg Prod.snd same⟩

namespace Place

variable {p : Place} {x : Space} {n : UInt32}

/-- What becomes of a request in any space that calls can lead to. -/
theorem Stands.alloc_served (env : Environment) (h : p.Stands s) (owns : p.Owns s x) (bounded : x.Bounded)
    (n : UInt32) : if x.Grants n.toNat
      then Serves env p.inst s (.alloc n) (.ok [.i32 (UInt32.ofNat x.next)]) (p.put s (x.advanced n.toNat))
      else Serves env p.inst s (.alloc n) (.error (.trap .unreachable)) (p.put s x.exhausted) := by
  have served := h.serves env (c := .alloc n) (x := x) id
  have same : n = UInt32.ofNat n.toNat := UInt32.ofNat_toNat.symm
  rw [owns.put_eq, Call.work, Work.giving] at served
  split
  · next granted =>
      rw [Work.alloc_granted bounded same granted] at served
      exact served
  · next denied =>
      rw [Work.alloc_denied bounded same denied] at served
      exact served

/-- A request is refused for want of room only, and leaves the memory with all its pages. -/
theorem Stands.alloc_refused {e : Failure} (h : p.Stands s) (owns : p.Owns s x) (bounded : x.Bounded)
    (refused : Serves env p.inst s (.alloc n) (.error e) s') :
    ¬ x.Grants n.toNat ∧ e = .trap .unreachable ∧ s' = p.put s x.exhausted := by
  have served := h.alloc_served env owns bounded n
  by_cases granted : x.Grants n.toNat
  · rw [if_pos granted] at served
    cases (refused.unique served).1
  · rw [if_neg granted] at served
    obtain ⟨same, left⟩ := refused.unique served
    cases same
    exact ⟨granted, rfl, left⟩

/-- What fits into the memory that there is, is granted. -/
theorem Stands.alloc_fits (env : Environment) (h : p.Stands s) (owns : p.Owns s x) (bounded : x.Bounded)
    (spare : x.memory.pages < maxPages) (fits : x.next + n.toNat ≤ x.memory.size) :
    ∃ t, Serves env p.inst s (.alloc n) (.ok [.i32 (UInt32.ofNat x.next)]) t := by
  obtain ⟨stop, within⟩ := Space.stop_of_fits spare fits
  have granted : x.Grants n.toNat := (Space.grants_iff spare).mpr (Nat.le_trans (Nat.le_of_eq stop) within)
  have served := h.alloc_served env owns bounded n
  rw [if_pos granted] at served
  exact ⟨_, served⟩

/-- It is refused once the memory has all its pages, unless it is empty and lies at zero. -/
theorem Stands.alloc_exhausted (env : Environment) (h : p.Stands s) (bounded : x.Bounded)
    (spare : x.memory.pages < maxPages) (fits : x.next + n.toNat ≤ x.memory.size) :
    ∃ t, Serves env p.inst (p.put s x.exhausted) (.alloc n)
      (if x.next + n.toNat = 0 then .ok [.i32 0] else .error (.trap .unreachable)) t := by
  have grants : x.exhausted.Grants n.toNat ↔ x.next + n.toNat = 0 := by
    rw [(Space.full_exhausted x).grants_iff, ← (Space.stop_of_fits spare fits).1]
    rfl
  have served := (h.put x.exhausted).alloc_served env (h.owns_put x.exhausted) bounded.exhausted n
  by_cases zero : x.next + n.toNat = 0
  · have next : x.exhausted.next = 0 := Nat.eq_zero_of_add_eq_zero_right zero
    rw [if_pos (grants.mpr zero), next] at served
    rw [if_pos zero]
    exact ⟨_, served⟩
  · rw [if_neg (mt grants.mp zero)] at served
    rw [if_neg zero]
    exact ⟨_, served⟩

end Place

/-- An instance in a store, an account that is right, and a memory that is full. -/
def Filled (inst : Nat) (s : Store) (a : Account) : Prop :=
  ∃ (p : Place) (x : Space), p.inst = inst ∧ p.Stands s ∧ p.Owns s x ∧ a.Kept x ∧ x.Full

theorem Move.filled {b e : Store × Account} (move : Move env inst b e) (before : Filled inst b.1 b.2) :
    Filled inst e.1 e.2 := by
  obtain ⟨p, x, rfl, stands, owns, kept, full⟩ := before
  obtain ⟨y, stands, owns, kept', ⟨buffers, rfl⟩ | ⟨c, rfl⟩⟩ := move.follows stands owns kept
  · exact ⟨p, _, rfl, stands, owns, kept', full⟩
  · exact ⟨p, _, rfl, stands, owns, kept', c.full kept.bounded full⟩

theorem moves_filled {b e : Store × Account} (moves : ReflTransGen (Move env inst) b e)
    (before : Filled inst b.1 b.2) : Filled inst e.1 e.2 := by
  induction moves with
  | refl => exact before
  | tail _ last ih => exact last.filled ih

/-- In a full memory there is no room for anything that does not end at zero. -/
theorem Filled.refuses (env : Environment) {a : Account} (filled : Filled inst s a) :
    ∃ y, space? s inst = some y ∧ ∀ c b, c.block? y.buffers = some b →
      (y.next + b.size) % UInt32.size ≠ 0 →
        ∃ t, Serves env inst s c (.error (.trap .unreachable)) t ∧ space? t inst = some y := by
  obtain ⟨p, y, rfl, stands, owns, kept, full⟩ := filled
  refine ⟨y, stands.space?_eq.mpr owns, fun c b block past => ?_⟩
  have denied : ¬ y.Grants b.size := fun granted => past (full.grants_iff.mp granted)
  have served := stands.serves env (Call.fed_of_block block y)
  have same : y.exhausted = y := by
    rw [Space.exhausted, filled, ← show y.memory.pages = 65536 from full]
  rw [owns.put_eq, Call.denied kept.bounded block denied, same, owns.put_eq] at served
  exact ⟨s, served, stands.space?_eq.mpr owns⟩

/-- A request that is refused disables the instance. While memory has pages to spare, what is
refused is a block whose end, as a word, is past the limit. The search for room then takes every
page, and the size of the memory counts as zero. A request that fitted into the memory that there
was, and that would have been granted before, is refused now, unless its block is empty and lies at
zero. So is whatever is asked for later, after any calls, unless its end comes round to zero. -/
theorem refusal_disables {s₀ s : Store} {a : Account} (fresh : Fresh inst s₀)
    (moves : ReflTransGen (Move env inst) (s₀, {}) (s, a)) :
    ∃ x, space? s inst = some x ∧ (x.memory.pages < maxPages → ∀ n,
      ((∃ e s', Serves env inst s (.alloc n) (.error e) s') ↔
        limit < (x.next + n.toNat) % UInt32.size) ∧
      ∀ e s', Serves env inst s (.alloc n) (.error e) s' →
        space? s' inst = some x.exhausted ∧
        (∀ k, x.next + k.toNat ≤ x.memory.size →
          (∃ t, Serves env inst s (.alloc k) (.ok [.i32 (UInt32.ofNat x.next)]) t) ∧
          ∃ t, Serves env inst s' (.alloc k)
            (if x.next + k.toNat = 0 then .ok [.i32 0] else .error (.trap .unreachable)) t) ∧
        ∀ s₁ a₁, ReflTransGen (Move env inst) (s', a.after x (.alloc n) (.error e)) (s₁, a₁) →
          ∃ y, space? s₁ inst = some y ∧ ∀ c b, c.block? y.buffers = some b →
            (y.next + b.size) % UInt32.size ≠ 0 →
              ∃ t, Serves env inst s₁ c (.error (.trap .unreachable)) t ∧ space? t inst = some y) := by
  obtain ⟨p, x, rfl, stands, owns, kept⟩ := moves_reckoned moves fresh.reckoned
  have bounded := kept.bounded
  refine ⟨x, stands.space?_eq.mpr owns, fun spare n => ⟨?_, ?_⟩⟩
  · rw [← Nat.not_le, ← Space.grants_iff spare]
    constructor
    · rintro ⟨e, s', refused⟩
      exact (stands.alloc_refused owns bounded refused).1
    · intro denied
      have served := stands.alloc_served env owns bounded n
      rw [if_neg denied] at served
      exact ⟨_, _, served⟩
  · intro e s' refused
    obtain ⟨denied, rfl, rfl⟩ := stands.alloc_refused owns bounded refused
    have stands' := stands.put x.exhausted
    have owns' := stands.owns_put x.exhausted
    refine ⟨stands'.space?_eq.mpr owns', fun k fits => ?_, fun s₁ a₁ later => ?_⟩
    · exact ⟨stands.alloc_fits env owns bounded spare fits, stands.alloc_exhausted env bounded spare fits⟩
    · have works : (Call.alloc n).work x = (.error (.trap .unreachable), x.exhausted) :=
        Call.denied bounded (b := .raw n.toNat) rfl denied
      have account := kept.after (.alloc n)
      rw [works] at account
      exact (moves_filled later ⟨p, _, rfl, stands', owns', account, Space.full_exhausted x⟩).refuses env

/-- After a request for nearly all addresses, not even 8 bytes are handed out. -/
theorem eight_disabled : ∃ s₀ s₁, Fresh 0 s₀ ∧
    (∃ t, Serves builtinEnv 0 s₀ (.alloc 8) (.ok [.i32 16]) t) ∧
    Serves builtinEnv 0 s₀ (.alloc 0xFFFF0000) (.error (.trap .unreachable)) s₁ ∧
    ∃ t, Serves builtinEnv 0 s₁ (.alloc 8) (.error (.trap .unreachable)) t := by
  obtain ⟨p, s₀, fresh, hp, stands, owns⟩ := fresh_bare
  have none : ReflTransGen (Move builtinEnv 0) (s₀, {}) (s₀, {}) := .refl
  obtain ⟨x, found, disabled⟩ := refusal_disables fresh none
  have same : space? s₀ 0 = some (Space.fresh {}) := hp ▸ stands.space?_eq.mpr owns
  cases same.symm.trans found
  obtain ⟨refused, disables⟩ := disabled (by decide) 0xFFFF0000
  obtain ⟨e, s₁, failed⟩ := refused.mpr (by decide)
  have asked := stands.alloc_served builtinEnv owns (Space.Bounded.fresh {}) 0xFFFF0000
  rw [if_neg (by decide), hp] at asked
  cases (failed.unique asked).1
  obtain ⟨-, requests, -⟩ := disables _ _ failed
  obtain ⟨before, after⟩ := requests 8 (by decide)
  exact ⟨s₀, s₁, fresh, before, failed, after⟩

end GuestHost.Support
