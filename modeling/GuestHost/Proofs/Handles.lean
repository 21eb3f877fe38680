import GuestHost.Buffers
import Mathlib.Data.List.Nodup
import Mathlib.Data.List.Perm.Subperm
import Mathlib.Logic.Function.Iterate

/-! Handles go round the positive words. One that is not live is found as long as there
is one. -/

namespace GuestHost

namespace Handle

theorem toInt_last : Handle.last.toInt = 2147483647 := rfl

theorem toInt_le (h : Handle) : h.toInt ≤ 2147483647 := Int32.toInt_le h

theorem succ_last : Handle.succ Handle.last = 1 := if_pos rfl

theorem toInt_succ {h : Handle} (below : h ≠ Handle.last) : h.succ.toInt = h.toInt + 1 := by
  have less : h.toInt ≠ 2147483647 := fun same => below (Int32.toInt_inj.mp same)
  have bound := toInt_le h
  have least := Int32.le_toInt h
  have one : (1 : Int32).toInt = 1 := rfl
  rw [Handle.succ, if_neg below, Int32.toInt_add, one]
  rw [Int.bmod_eq_of_le] <;> omega

/-- Handles count up until they come to the last. -/
theorem toInt_iterate {h : Handle} {d : Nat} (fits : h.toInt + d ≤ 2147483647) :
    (Handle.succ^[d] h).toInt = h.toInt + d := by
  induction d with
  | zero => simp
  | succ d ih =>
      have before := ih (by omega)
      rw [Function.iterate_succ_apply', toInt_succ, before]
      · omega
      · intro last
        rw [last, toInt_last] at before
        omega

/-- No handle comes round again before all positive ones have had their turn. -/
theorem iterate_ne {h : Handle} {d : Nat} (some_d : 0 < d) (few : d < 2147483647) :
    Handle.succ^[d] h ≠ h := by
  intro same
  by_cases fits : h.toInt + d ≤ 2147483647
  · have up := toInt_iterate fits
    rw [same] at up
    omega
  · have bound := toInt_le h
    obtain ⟨m, hm⟩ : ∃ m : Nat, h.toInt + m = 2147483647 := ⟨(2147483647 - h.toInt).toNat, by omega⟩
    obtain ⟨k, rfl⟩ : ∃ k, d = k + (1 + m) := ⟨d - (1 + m), by omega⟩
    have last : Handle.succ^[m] h = Handle.last := by
      rw [← Int32.toInt_inj, toInt_iterate (by omega), hm]
      rfl
    rw [Function.iterate_add_apply, Function.iterate_add_apply, last, Function.iterate_one,
      succ_last] at same
    have one : (1 : Int32).toInt = 1 := rfl
    have up := toInt_iterate (h := 1) (d := k) (by omega)
    rw [same, one] at up
    omega

theorem iterate_ne_of_lt {h : Handle} {i j : Nat} (less : i < j) (few : j - i < 2147483647) :
    Handle.succ^[i] h ≠ Handle.succ^[j] h := by
  intro same
  rw [← Nat.sub_add_cancel (Nat.le_of_lt less), Function.iterate_add_apply] at same
  exact iterate_ne (Nat.sub_pos_of_lt less) few same.symm

/-- A list of all that come next has at least their number of elements. -/
theorem count_le {ks : List Handle} {d : Nat} {h : Handle} (few : d ≤ 2147483647)
    (listed : ∀ i < d, Handle.succ^[i + 1] h ∈ ks) : d ≤ ks.length := by
  have within : ((List.range d).map fun i => Handle.succ^[i + 1] h) ⊆ ks := by
    intro k found
    obtain ⟨i, less, rfl⟩ := List.mem_map.mp found
    exact listed i (List.mem_range.mp less)
  have distinct : ((List.range d).map fun i => Handle.succ^[i + 1] h).Nodup := by
    refine List.Nodup.map_on ?_ List.nodup_range
    intro i hi j hj same
    rw [List.mem_range] at hi hj
    by_contra differ
    rcases Nat.lt_or_gt_of_ne differ with less | more
    · exact iterate_ne_of_lt (Nat.succ_lt_succ less) (by omega) same
    · exact iterate_ne_of_lt (Nat.succ_lt_succ more) (by omega) same.symm
  have count := (distinct.subperm within).length_le
  rwa [List.length_map, List.length_range] at count

/-- After zero or a positive handle come the positive ones, in a circle. -/
theorem toInt_iterate_succ {h : Handle} (nonneg : 0 ≤ h.toInt) (d : Nat) :
    (Handle.succ^[d + 1] h).toInt = (h.toInt + d) % 2147483647 + 1 := by
  have turn {k : Handle} (nonneg : 0 ≤ k.toInt) : k.succ.toInt = k.toInt % 2147483647 + 1 := by
    by_cases last : k = Handle.last
    · rw [last, succ_last]
      rfl
    · have less : k.toInt ≠ 2147483647 := fun same => last (Int32.toInt_inj.mp same)
      have bound := toInt_le k
      rw [toInt_succ last]
      omega
  induction d with
  | zero => simpa using turn nonneg
  | succ d ih =>
      rw [Function.iterate_succ_apply', turn (by omega), ih]
      omega

/-- The number of positive handles that come after the one and before the other has its turn. -/
def ahead (last h : Handle) : Int := (h.toInt - last.toInt - 1) % 2147483647

theorem ahead_nonneg (last h : Handle) : 0 ≤ ahead last h := Int.emod_nonneg _ (by decide)

theorem iterate_ahead {last h : Handle} (nonneg : 0 ≤ last.toInt) (positive : 0 < h.toInt) :
    Handle.succ^[(ahead last h).toNat + 1] last = h := by
  have bound := toInt_le h
  rw [← Int32.toInt_inj, toInt_iterate_succ nonneg, ahead]
  omega

theorem ahead_iterate {last : Handle} (nonneg : 0 ≤ last.toInt) (d : Nat) :
    ahead last (Handle.succ^[d + 1] last) = d % 2147483647 := by
  rw [ahead, toInt_iterate_succ nonneg]
  omega

end Handle

namespace Buffers

/-- If the handle that was found is live, so are all that were passed over. -/
theorem live_of_freeAfter {live : Std.ExtTreeMap Handle ByteArray} {n : Nat} {h : Handle}
    (found : freeAfter live n h ∈ live) {i : Nat} (among : i ≤ n) : Handle.succ^[i + 1] h ∈ live := by
  induction n generalizing h i with
  | zero =>
      obtain rfl : i = 0 := Nat.le_zero.mp among
      exact found
  | succ n ih =>
      rw [freeAfter] at found
      split at found
      · next busy =>
          cases i with
          | zero => exact busy
          | succ i => exact ih found (Nat.le_of_succ_le_succ among)
      · next free => exact absurd found free

/-- Handles that come one after the other are different, so no more of them are live than there
are buffers. -/
theorem passed_le {live : Std.ExtTreeMap Handle ByteArray} {d : Nat} {h : Handle} (few : d ≤ 2147483647)
    (passed : ∀ i < d, Handle.succ^[i + 1] h ∈ live) : d ≤ live.size := by
  have listed (i : Nat) (less : i < d) : Handle.succ^[i + 1] h ∈ live.keys :=
    Std.ExtTreeMap.mem_keys.mpr (passed i less)
  have count := Handle.count_le few listed
  rwa [Std.ExtTreeMap.length_keys] at count

/-- A fresh handle is not live unless all positive handles are. -/
theorem fresh_not_mem {t : Buffers} (free : t.live.size < 2147483647) : t.fresh ∉ t.live := by
  intro found
  have count := passed_le (d := t.live.size + 1) free fun i less =>
    live_of_freeAfter found (Nat.le_of_lt_succ less)
  omega

/-- As many buffers are live as there are handles to issue. -/
def Full (t : Buffers) : Prop := 2147483647 ≤ t.size

/-- The search for a handle goes on forever only if all are live. -/
theorem Full.of_mem {t : Buffers} (busy : t.fresh ∈ t.live) : t.Full :=
  Nat.le_of_not_lt fun free => fresh_not_mem free busy

section

variable {t t' : Buffers} {bytes : ByteArray} {k : Handle}

/-- What is stored lies under the fresh handle, which was not live. -/
theorem insert_eq_some :
    t.insert bytes = some (k, t') ↔
      t.fresh ∉ t.live ∧ k = t.fresh ∧ t' = ⟨t.fresh, t.live.insert t.fresh bytes, t.fresh_nonneg⟩ := by
  rw [insert]
  split
  · next busy => simp [busy]
  · next free =>
      rw [Option.some.injEq, Prod.mk.injEq, eq_comm, @eq_comm _ _ t']
      exact (and_iff_right free).symm

theorem insert_of_free (free : t.fresh ∉ t.live) :
    t.insert bytes = some (t.fresh, ⟨t.fresh, t.live.insert t.fresh bytes, t.fresh_nonneg⟩) :=
  insert_eq_some.mpr ⟨free, rfl, rfl⟩

theorem get_eq_ok : t.get k = .ok bytes ↔ t.live[k]? = some bytes := by
  rw [get]
  cases t.live[k]? with
  | none => simp
  | some bs => simp

/-- Storing bytes leaves all other buffers as they were. -/
theorem get_of_insert {j : Handle} {bs : ByteArray} (stored : t.insert bytes = some (j, t'))
    (live : t.get k = .ok bs) : t'.get k = .ok bs := by
  obtain ⟨free, rfl, rfl⟩ := insert_eq_some.mp stored
  rw [get_eq_ok] at live ⊢
  have other : t.fresh ≠ k := by
    rintro rfl
    exact free (Std.ExtTreeMap.mem_iff_isSome_getElem?.mpr (by rw [live, Option.isSome_some]))
  simp [Std.ExtTreeMap.getElem?_insert, other, live]

end

end Buffers

end GuestHost
