import GuestHost.Number.Layout
import Mathlib.Data.Nat.Digits.Defs

/-! How far the parts of a number, and of the shortest decimal for it, can reach. The bounds are
generous. -/

namespace GuestHost

namespace Binary64

variable (x : Binary64)

theorem magnitude_lt : x.magnitude < 0x8000000000000000 := Nat.mod_lt _ (by decide)

theorem fraction_lt : x.fraction < 0x10000000000000 := Nat.mod_lt _ (by decide)

theorem exponentField_lt : x.exponentField < 2048 :=
  Nat.div_lt_of_lt_mul x.magnitude_lt

theorem significand_lt : x.significand < 10 ^ 16 := by
  have below := x.fraction_lt
  rw [significand]
  split
  · omega
  · change 0x10000000000000 + _ < _
    omega

theorem scale_bounds : -1074 ≤ x.scale ∧ x.scale ≤ 972 := by
  have below := x.exponentField_lt
  rw [scale]
  omega

end Binary64

namespace RoundingInterval

/-- What is known of the interval of a number. -/
structure Bounded (r : RoundingInterval) : Prop where
  value : r.value < 10 ^ 17
  low : -1074 ≤ r.unit
  high : r.unit ≤ 972

theorem bounded_of (x : Binary64) : (of x).Bounded where
  value := by
    have below := x.significand_lt
    change 4 * x.significand < _
    omega
  low := x.scale_bounds.1
  high := x.scale_bounds.2

variable {r : RoundingInterval}

namespace Bounded

variable (h : r.Bounded)

include h

theorem decimalScale : -400 ≤ r.decimalScale ∧ r.decimalScale ≤ 400 := by
  have low := h.low
  have high := h.high
  have log : r.value.log2 < 57 := by
    by_cases zero : r.value = 0
    · rw [zero]
      decide
    · have below := h.value
      rw [Nat.log2_lt zero]
      omega
  rw [RoundingInterval.decimalScale]
  simp only [Int.fdiv_eq_ediv_of_nonneg _ (show (0 : Int) ≤ 4096 by decide)]
  split
  · omega
  · split <;> omega

end Bounded

theorem nearer_le (tie : Tie) (grid : Int) (d : Nat) : r.nearer tie grid d ≤ d + 1 := by
  unfold nearer
  dsimp only
  split
  · omega
  · split
    · omega
    · split
      · omega
      · split <;> omega

theorem pointOn?_eq_some {tie : Tie} {grid : Int} {d : Decimal} (found : r.pointOn? tie grid = some d) :
    d.digits ≤ r.floorOn grid + 1 ∧ d.exponent = grid := by
  unfold pointOn? at found
  dsimp only at found
  split at found
  · cases found
    exact ⟨nearer_le _ _ _, rfl⟩
  · cases found
    exact ⟨Nat.le_succ _, rfl⟩
  · cases found
    exact ⟨Nat.le_refl _, rfl⟩
  · cases found

end RoundingInterval

namespace RoundingInterval.Bounded

variable {r : RoundingInterval} (h : r.Bounded)

theorem search_exponent {tie : Tie} {n : Nat} {grid : Int} {d : Decimal} (fine : -500 ≤ grid - n)
    (coarse : grid ≤ 400) (found : r.search tie n grid = some d) : -500 ≤ d.exponent ∧ d.exponent ≤ 400 := by
  induction n generalizing grid with
  | zero => cases found
  | succ n ih =>
      rw [RoundingInterval.search, Option.or_eq_some_iff] at found
      rcases found with here | ⟨_, later⟩
      · have exponent := (pointOn?_eq_some here).2
        omega
      · exact ih (by omega) (by omega) later

include h

theorem exact_exponent : -1100 ≤ r.exact.exponent ∧ r.exact.exponent ≤ 400 := by
  have low := h.low
  change -1100 ≤ -((2 - r.unit).toNat : Int) ∧ -((2 - r.unit).toNat : Int) ≤ 400
  omega

end RoundingInterval.Bounded

namespace Decimal

theorem strip_exponent (n : Nat) (d : Decimal) :
    d.exponent ≤ (d.strip n).exponent ∧ (d.strip n).exponent ≤ d.exponent + n := by
  induction n generalizing d with
  | zero => simp [strip]
  | succ n ih =>
      rw [strip]
      split
      · have later := ih ⟨d.digits / 10, d.exponent + 1⟩
        dsimp only at later
        omega
      · omega

end Decimal

theorem Binary64.shortest_exponent (x : Binary64) (tie : Tie) :
    -1100 ≤ (x.shortest tie).exponent ∧ (x.shortest tie).exponent ≤ 1200 := by
  have bounded := RoundingInterval.bounded_of x
  rw [Binary64.shortest]
  generalize RoundingInterval.of x = r at bounded
  have scale := bounded.decimalScale
  have near : -1100 ≤ ((r.search tie 17 (r.decimalScale - 1)).getD r.exact).exponent ∧
      ((r.search tie 17 (r.decimalScale - 1)).getD r.exact).exponent ≤ 400 := by
    cases found : r.search tie 17 (r.decimalScale - 1) with
    | none => exact bounded.exact_exponent
    | some d =>
        have exponent := RoundingInterval.Bounded.search_exponent (by omega) (by omega) found
        rw [Option.getD_some]
        omega
  generalize (r.search tie 17 (r.decimalScale - 1)).getD r.exact = d at near
  have stripped := Decimal.strip_exponent 800 d
  omega

end GuestHost
