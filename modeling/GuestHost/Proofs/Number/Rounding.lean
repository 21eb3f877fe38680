import GuestHost.Proofs.Number.Ranges
import Mathlib.Algebra.Order.Field.Power
import Mathlib.Data.Int.Log
import Mathlib.Data.Rat.Floor
import Mathlib.Tactic.FieldSimp
import Mathlib.Tactic.GCongr
import Mathlib.Tactic.Linarith
import Mathlib.Tactic.NormNum
import Mathlib.Tactic.Positivity

/-! What a quotient is rounded to. The computation goes by shifts of naturals; here it is read as
one on rationals, where the numbers that round to a given one form an interval. -/

namespace GuestHost

/-! ## Shifts -/

theorem cast_pow (p n : ℕ) : ((Nat.pow p n : ℕ) : ℚ) = (p : ℚ) ^ n := Nat.cast_pow p n

/-- A power with any exponent is a quotient of two, one of which is one. -/
theorem zpow_eq_div {p : ℕ} (positive : 0 < p) (i : ℤ) :
    (p : ℚ) ^ i = (Nat.pow p i.toNat : ℕ) / (Nat.pow p (-i).toNat : ℕ) := by
  have some_p : (p : ℚ) ≠ 0 := by exact_mod_cast positive.ne'
  rw [cast_pow, cast_pow, ← zpow_natCast, ← zpow_natCast, ← zpow_sub₀ some_p]
  congr 1
  omega

/-- A quotient with one of its sides shifted is the quotient divided by a power. -/
theorem shifted_div {p : ℕ} (positive : 0 < p) (num den : ℕ) (i : ℤ) :
    ((num * Nat.pow p (-i).toNat : ℕ) : ℚ) / (den * Nat.pow p i.toNat : ℕ) = (num : ℚ) / den / (p : ℚ) ^ i := by
  rw [zpow_eq_div positive, Nat.cast_mul, Nat.cast_mul, div_div_eq_mul_div, div_mul_eq_mul_div, div_div]

/-! ## Logarithms -/

/-- Two powers in a row tell the logarithm of what lies between them. -/
theorem log_eq_of_powers {b : ℕ} (base : 1 < b) {v : ℚ} {k : ℤ} (low : (b : ℚ) ^ k ≤ v)
    (high : v < (b : ℚ) ^ (k + 1)) : Int.log b v = k := by
  have some_b : (0 : ℚ) < b := by exact_mod_cast Nat.zero_lt_of_lt base
  have positive : 0 < v := lt_of_lt_of_le (zpow_pos some_b k) low
  have below := (Int.lt_zpow_iff_log_lt base positive).mp high
  have above := (Int.zpow_le_iff_le_log base positive).mp low
  omega

namespace Binary64

theorem log_eq {v : ℚ} {k : ℤ} (low : (2 : ℚ) ^ k ≤ v) (high : v < (2 : ℚ) ^ (k + 1)) : Int.log 2 v = k :=
  log_eq_of_powers (by norm_num) (by exact_mod_cast low) (by exact_mod_cast high)

/-- The logarithm of a number counts from its unit on. -/
theorem log_lt_iff {v : ℚ} (positive : 0 < v) (s k : ℤ) : Int.log 2 v < s + k ↔ v / 2 ^ s < 2 ^ k := by
  rw [div_lt_iff₀ (zpow_pos (by norm_num) s), ← zpow_add₀ (by norm_num), add_comm k]
  exact (Int.lt_zpow_iff_log_lt (b := 2) (by norm_num) positive).symm

/-- The logarithms of both sides tell that of the quotient, but for one step. -/
theorem quotient_bounds {num den : ℕ} (some_num : 0 < num) (some_den : 0 < den) :
    (2 : ℚ) ^ ((num.log2 : ℤ) - den.log2 - 1) < (num : ℚ) / den ∧
      (num : ℚ) / den < (2 : ℚ) ^ ((num.log2 : ℤ) - den.log2 + 1) := by
  have num_low : ((2 : ℚ) ^ num.log2) ≤ num := by exact_mod_cast Nat.log2_self_le some_num.ne'
  have num_high : (num : ℚ) < 2 ^ (num.log2 + 1) := by exact_mod_cast Nat.lt_log2_self
  have den_low : ((2 : ℚ) ^ den.log2) ≤ den := by exact_mod_cast Nat.log2_self_le some_den.ne'
  have den_high : (den : ℚ) < 2 ^ (den.log2 + 1) := by exact_mod_cast Nat.lt_log2_self
  have two : (2 : ℚ) ≠ 0 := by norm_num
  constructor
  · calc (2 : ℚ) ^ ((num.log2 : ℤ) - den.log2 - 1) = 2 ^ num.log2 / 2 ^ (den.log2 + 1) := by
          rw [← zpow_natCast, ← zpow_natCast, ← zpow_sub₀ two]
          congr 1
          push_cast
          ring
      _ < 2 ^ num.log2 / den := by gcongr
      _ ≤ (num : ℚ) / den := by gcongr
  · calc (num : ℚ) / den ≤ num / 2 ^ den.log2 := by gcongr
      _ < 2 ^ (num.log2 + 1) / 2 ^ den.log2 := by gcongr
      _ = (2 : ℚ) ^ ((num.log2 : ℤ) - den.log2 + 1) := by
          rw [← zpow_natCast, ← zpow_natCast, ← zpow_sub₀ two]
          congr 1
          push_cast
          ring

/-- The test for the step decides it. -/
theorem step_iff {num den : ℕ} (some_den : 0 < den) (e : ℤ) :
    den * Nat.pow 2 e.toNat ≤ num * Nat.pow 2 (-e).toNat ↔ (2 : ℚ) ^ e ≤ (num : ℚ) / den := by
  have shifted := shifted_div (p := 2) (by norm_num) num den e
  rw [Nat.cast_ofNat] at shifted
  have power : (0 : ℚ) < 2 ^ e := zpow_pos (by norm_num) e
  have positive : (0 : ℚ) < (den * Nat.pow 2 e.toNat : ℕ) := by
    exact_mod_cast Nat.mul_pos some_den (Nat.pow_pos (by norm_num))
  rw [← one_le_div power, ← shifted, one_le_div positive, Nat.cast_le]

theorem floorLog2_eq {num den : ℕ} (some_num : 0 < num) (some_den : 0 < den) :
    floorLog2 num den = Int.log 2 ((num : ℚ) / den) := by
  obtain ⟨low, high⟩ := quotient_bounds some_num some_den
  rw [floorLog2]
  split
  · next above => exact (log_eq ((step_iff some_den _).mp above) high).symm
  · next below =>
      rw [step_iff some_den, not_le] at below
      refine (log_eq low.le ?_).symm
      rwa [sub_add_cancel]

/-! ## Halves -/

/-- What lies no farther than a half from a natural is rounded to it, if it is even or the
distance is less. -/
theorem roundHalfEven_eq {num den m : ℕ} (low : 2 * (m * den) ≤ 2 * num + den)
    (high : 2 * num ≤ 2 * (m * den) + den) (some_den : 0 < den)
    (odd : m % 2 = 1 → 2 * (m * den) < 2 * num + den ∧ 2 * num < 2 * (m * den) + den) :
    roundHalfEven num den = m := by
  have split := Nat.div_add_mod num den
  have rest := Nat.mod_lt num some_den
  rw [roundHalfEven]
  generalize num / den = q at split
  generalize num % den = r at split rest
  rw [Nat.mul_comm] at split
  rcases Nat.lt_trichotomy m q with less | rfl | more
  · have step := Nat.mul_le_mul_right den (Nat.succ_le_of_lt less)
    rw [Nat.succ_mul] at step
    omega
  · split_ifs <;> omega
  · by_cases next : m = q + 1
    · subst next
      have step : (q + 1) * den = q * den + den := Nat.succ_mul q den
      split_ifs <;> omega
    · have step := Nat.mul_le_mul_right den (show q + 2 ≤ m by omega)
      rw [Nat.add_mul] at step
      omega

/-- A rational is no farther than a half from a natural, and less if the natural is odd. -/
structure Near (m : ℕ) (w : ℚ) : Prop where
  low : (m : ℚ) - 1 / 2 ≤ w
  high : w ≤ m + 1 / 2
  odd : m % 2 = 1 → (m : ℚ) - 1 / 2 < w ∧ w < m + 1 / 2

theorem roundHalfEven_of_near {num den m : ℕ} (some_den : 0 < den) (near : Near m ((num : ℚ) / den)) :
    roundHalfEven num den = m := by
  have positive : (0 : ℚ) < den := by exact_mod_cast some_den
  refine roundHalfEven_eq ?_ ?_ some_den fun odd => ⟨?_, ?_⟩
  · have low := (le_div_iff₀ positive).mp near.low
    have whole : (2 * (m * den) : ℚ) ≤ 2 * num + den := by linarith
    exact_mod_cast whole
  · have high := (div_le_iff₀ positive).mp near.high
    have whole : (2 * num : ℚ) ≤ 2 * (m * den) + den := by linarith
    exact_mod_cast whole
  · have low := (lt_div_iff₀ positive).mp (near.odd odd).1
    have whole : (2 * (m * den) : ℚ) < 2 * num + den := by linarith
    exact_mod_cast whole
  · have high := (div_lt_iff₀ positive).mp (near.odd odd).2
    have whole : (2 * num : ℚ) < 2 * (m * den) + den := by linarith
    exact_mod_cast whole

/-! ## Rounding -/

/-- Rounding takes the unit from the logarithm, and then the natural that the quotient is near to. -/
theorem ofRatio_of_near {num den m : ℕ} {q : ℤ} (negative : Bool) (some_num : 0 < num) (some_den : 0 < den)
    (unit : max (Int.log 2 ((num : ℚ) / den) - 52) (-1074) = q) (near : Near m ((num : ℚ) / den / 2 ^ q)) :
    ofRatio negative num den = ofMagnitude negative ((q + 1074).toNat * leadingBit + m) := by
  have shifted := shifted_div (p := 2) (by norm_num) num den q
  rw [Nat.cast_ofNat] at shifted
  rw [← shifted] at near
  rw [ofRatio, if_neg some_num.ne', floorLog2_eq some_num some_den, unit]
  dsimp only
  have positive : 0 < den * Nat.pow 2 q.toNat := Nat.mul_pos some_den (Nat.pow_pos (by norm_num))
  rw [roundHalfEven_of_near positive near]

variable {x : Binary64}

theorem magnitude_split (x : Binary64) : x.exponentField * leadingBit + x.fraction = x.magnitude :=
  Nat.div_add_mod' x.magnitude leadingBit

/-- The bits of a magnitude are its significand, but for the leading bit, behind its scale. -/
theorem magnitude_eq (x : Binary64) :
    x.magnitude = (x.scale + 1074).toNat * leadingBit + x.significand := by
  rw [scale, significand, ← x.magnitude_split]
  by_cases subnormal : x.exponentField = 0
  · rw [if_pos subnormal, subnormal]
    rfl
  · obtain ⟨e, exponent⟩ := Nat.exists_eq_succ_of_ne_zero subnormal
    rw [if_neg subnormal, exponent, show ((max e.succ 1 : ℕ) - 1075 + 1074 : ℤ).toNat = e by omega, Nat.succ_mul]
    exact Nat.add_assoc _ _ _

/-- A number that is not zero has a significand, and all of its bits unless its scale is least. -/
theorem significand_cases (some_x : x.isZero = false) :
    0 < x.significand ∧ (leadingBit ≤ x.significand ∨ x.scale = -1074) := by
  have split := x.magnitude_split
  have some_magnitude : x.magnitude ≠ 0 := by simpa [isZero] using some_x
  rw [significand, scale]
  by_cases subnormal : x.exponentField = 0
  · rw [if_pos subnormal, subnormal]
    rw [subnormal] at split
    exact ⟨by omega, .inr rfl⟩
  · rw [if_neg subnormal]
    have leading : 0 < leadingBit := by decide
    exact ⟨by omega, .inl (Nat.le_add_right _ _)⟩

/-- A significand has no more than 53 bits. -/
theorem significand_succ_le (x : Binary64) : x.significand + 1 ≤ 2 ^ 53 := by
  have below := x.fraction_lt
  rw [significand]
  split
  · omega
  · change 0x10000000000000 + _ + 1 ≤ _
    omega

theorem magnitude_le (number : x.isNaN = false) : x.magnitude ≤ 2047 * leadingBit := by
  have ends : x.exponentField = 2047 → x.fraction = 0 := by simpa [isNaN] using number
  by_cases last : x.exponentField = 2047
  · rw [← x.magnitude_split, last, ends last]
    exact Nat.le_refl _
  · have below : x.exponentField < 2047 := Nat.lt_of_le_of_ne (Nat.le_of_lt_succ x.exponentField_lt) last
    exact ((Nat.div_lt_iff_lt_mul (by decide)).mp below).le

/-- The sign and the bits below it are all there is to a number. -/
theorem ofMagnitude_self (number : x.isNaN = false) : ofMagnitude x.isNegative x.magnitude = x := by
  have bits : x.bits.toNat < 2 * signBit := x.bits.toNat_lt
  have sum : (if x.isNegative then signBit else 0) + x.magnitude = x.bits.toNat := by
    rw [isNegative, magnitude]
    split
    · next negative =>
        rw [Nat.mod_eq_sub_mod (of_decide_eq_true negative), Nat.mod_eq_of_lt (by omega)]
        exact Nat.add_sub_of_le (of_decide_eq_true negative)
    · next positive =>
        rw [Nat.zero_add, Nat.mod_eq_of_lt]
        simpa using positive
  rw [ofMagnitude, Nat.min_eq_left (magnitude_le number), sum, UInt64.ofNat_toNat]

end Binary64

namespace RoundingInterval

/-- A rational lies in the interval. -/
structure Holds (r : RoundingInterval) (v : ℚ) : Prop where
  low : (r.low : ℚ) * 2 ^ (r.unit - 2) ≤ v
  high : v ≤ r.high * 2 ^ (r.unit - 2)
  ends : r.closed = false → (r.low : ℚ) * 2 ^ (r.unit - 2) < v ∧ v < r.high * 2 ^ (r.unit - 2)

variable {x : Binary64} {v : ℚ}

/-- A quarter of a unit. -/
theorem quarter (n : ℚ) (i : ℤ) : n * 2 ^ (i - 2) = n / 4 * 2 ^ i := by
  rw [zpow_sub₀ (by norm_num)]
  ring

/-- In units of the number, what rounds to it is near to its significand. -/
theorem Holds.near (holds : (of x).Holds v) : Binary64.Near x.significand (v / 2 ^ x.scale) := by
  have power : (0 : ℚ) < 2 ^ x.scale := zpow_pos (by norm_num) _
  have low : (x.significand : ℚ) - 1 / 2 ≤ (of x).low / 4 := by
    have least : 4 * x.significand ≤ (of x).low + 2 := by
      rw [of]
      split
      · dsimp only
        omega
      · dsimp only
        omega
    have whole : (4 * x.significand : ℚ) ≤ (of x).low + 2 := by exact_mod_cast least
    linarith
  have high : ((of x).high : ℚ) / 4 = x.significand + 1 / 2 := by
    change ((4 * x.significand + 2 : ℕ) : ℚ) / 4 = _
    push_cast
    ring
  obtain ⟨above, below, ends⟩ := holds
  change (_ : ℚ) * 2 ^ (x.scale - 2) ≤ v at above
  change v ≤ _ * 2 ^ (x.scale - 2) at below
  change _ → (_ : ℚ) * 2 ^ (x.scale - 2) < v ∧ v < _ * 2 ^ (x.scale - 2) at ends
  rw [quarter] at above below ends
  rw [quarter, high] at ends
  rw [high] at below
  refine ⟨low.trans ((le_div_iff₀ power).mpr above), (div_le_iff₀ power).mpr below, fun odd => ?_⟩
  have opened : (of x).closed = false := by
    change decide (x.significand % 2 = 0) = false
    rw [decide_eq_false_iff_not]
    omega
  obtain ⟨above, below⟩ := ends opened
  exact ⟨lt_of_le_of_lt low ((lt_div_iff₀ power).mpr above), (div_lt_iff₀ power).mpr below⟩

/-- Below a power of two the interval ends after a quarter. -/
theorem Holds.narrow (holds : (of x).Holds v) (power : x.significand = Binary64.leadingBit)
    (normal : -1074 < x.scale) : (x.significand : ℚ) - 1 / 4 ≤ v / 2 ^ x.scale := by
  have unit : (0 : ℚ) < 2 ^ x.scale := zpow_pos (by norm_num) _
  have low : (of x).low = 4 * x.significand - 1 := if_pos ⟨power, normal⟩
  have above := holds.low
  change (_ : ℚ) * 2 ^ (x.scale - 2) ≤ v at above
  rw [quarter, low, Nat.cast_sub (by rw [power]; decide)] at above
  have bound := (le_div_iff₀ unit).mpr above
  push_cast at bound
  linarith

/-- There the unit is half as large, and what rounds to the power has one bit more in it. -/
theorem Holds.carries (holds : (of x).Holds v) (power : x.significand = Binary64.leadingBit)
    (normal : -1074 < x.scale) (less : v / 2 ^ x.scale < 2 ^ (52 : ℤ)) :
    2 ^ (51 : ℤ) ≤ v / 2 ^ x.scale ∧ Binary64.Near (2 ^ 53) (v / 2 ^ (x.scale - 1)) := by
  have quarter := holds.narrow power normal
  rw [power] at quarter
  norm_num at quarter less
  have twice : v / 2 ^ (x.scale - 1) = 2 * (v / 2 ^ x.scale) := by
    rw [zpow_sub_one₀ (by norm_num)]
    field_simp
  constructor
  · norm_num
    linarith
  · rw [twice]
    refine ⟨?_, ?_, fun odd => absurd odd (by decide)⟩
    · push_cast
      linarith
    · push_cast
      linarith

/-- Only a power of two is rounded to from below its leading bit. -/
theorem Holds.power (holds : (of x).Holds v) (some_x : x.isZero = false) (normal : -1074 < x.scale)
    (less : v / 2 ^ x.scale < 2 ^ (52 : ℤ)) : x.significand = Binary64.leadingBit := by
  obtain ⟨-, digits⟩ := Binary64.significand_cases some_x
  have bound : (x.significand : ℚ) < (2 ^ 52 + 1 : ℕ) := by
    push_cast
    linarith [holds.near.low]
  have bound : x.significand < 2 ^ 52 + 1 := by exact_mod_cast bound
  exact Nat.le_antisymm (Nat.le_of_lt_succ bound) (digits.resolve_right normal.ne')

/-- What lies in the interval of a number is rounded to it, whatever the sign. -/
theorem Holds.ofRatio {num den : ℕ} (holds : (of x).Holds ((num : ℚ) / den)) (some_x : x.isZero = false)
    (some_num : 0 < num) (some_den : 0 < den) (negative : Bool) :
    Binary64.ofRatio negative num den = Binary64.ofMagnitude negative x.magnitude := by
  have positive : (0 : ℚ) < (num : ℚ) / den := by positivity
  have least := x.scale_bounds.1
  have below : ((num : ℚ) / den) / 2 ^ x.scale < 2 ^ (53 : ℤ) := by
    have most : (x.significand : ℚ) + 1 ≤ 2 ^ (53 : ℤ) := by
      exact_mod_cast x.significand_succ_le
    linarith [holds.near.high]
  rw [← Binary64.log_lt_iff positive] at below
  rw [Binary64.magnitude_eq x]
  by_cases short : ((num : ℚ) / den) / 2 ^ x.scale < 2 ^ (52 : ℤ) ∧ -1074 < x.scale
  · -- The logarithm is one less than that of the number, and so is the unit.
    obtain ⟨less, normal⟩ := short
    have power := holds.power some_x normal less
    obtain ⟨above, near⟩ := holds.carries power normal less
    have carried : 2 ^ 53 = Binary64.leadingBit + Binary64.leadingBit := rfl
    rw [← not_lt] at above
    rw [← Binary64.log_lt_iff positive] at less above
    rw [Binary64.ofRatio_of_near negative some_num some_den (by omega) near, power, carried,
      show (x.scale + 1074).toNat = (x.scale - 1 + 1074).toNat + 1 by omega, Nat.succ_mul, Nat.add_assoc]
  · refine Binary64.ofRatio_of_near negative some_num some_den ?_ holds.near
    rw [not_and_or, ← Binary64.log_lt_iff positive] at short
    omega

end RoundingInterval

end GuestHost
