import GuestHost.Proofs.Number.Rounding
import Mathlib.Algebra.Order.Floor.Ring
import Mathlib.Tactic.Abel
import Mathlib.Tactic.Ring

/-! What rounding comes to. A finite number denotes a rational, and of all finite numbers the one that
a rational is rounded to is the nearest, or the even one of two that are equally near. -/

namespace GuestHost

namespace Binary64

variable {x y : Binary64} {v w : ℚ} {m n : ℕ} {q : ℤ}

/-! ## Magnitudes -/

/-- The greatest magnitude that is not one of a NaN. -/
abbrev lastMagnitude : ℕ := 2047 * leadingBit

theorem bits_ofMagnitude (negative : Bool) (n : ℕ) :
    (ofMagnitude negative n).bits.toNat = (if negative then signBit else 0) + min n lastMagnitude := by
  have below : min n lastMagnitude < signBit := (Nat.min_le_right _ _).trans_lt (by decide)
  have sign : (if negative then signBit else 0) ≤ signBit := by split <;> simp
  rw [ofMagnitude, UInt64.toNat_ofNat', Nat.mod_eq_of_lt]
  exact Nat.add_lt_add_of_le_of_lt sign below

theorem isNegative_ofMagnitude (negative : Bool) (n : ℕ) : (ofMagnitude negative n).isNegative = negative := by
  have below : min n lastMagnitude < signBit := (Nat.min_le_right _ _).trans_lt (by decide)
  rw [isNegative, bits_ofMagnitude]
  cases negative with
  | true => exact decide_eq_true (Nat.le_add_right _ _)
  | false =>
      rw [if_neg (by decide), Nat.zero_add]
      exact decide_eq_false below.not_ge

theorem isNegative_ofRatio (negative : Bool) (num den : ℕ) : (ofRatio negative num den).isNegative = negative := by
  rw [ofRatio]
  split
  · exact isNegative_ofMagnitude _ _
  · exact isNegative_ofMagnitude _ _

theorem magnitude_ofMagnitude (negative : Bool) (n : ℕ) :
    (ofMagnitude negative n).magnitude = min n lastMagnitude := by
  have below : min n lastMagnitude < signBit := (Nat.min_le_right _ _).trans_lt (by decide)
  rw [magnitude, bits_ofMagnitude]
  cases negative with
  | true => rw [if_pos rfl, Nat.add_mod_left, Nat.mod_eq_of_lt below]
  | false => rw [if_neg (by decide), Nat.zero_add, Nat.mod_eq_of_lt below]

theorem ofMagnitude_of_le {negative : Bool} (last : lastMagnitude ≤ n) :
    ofMagnitude negative n = infinity negative := by
  rw [infinity, ofMagnitude, ofMagnitude, Nat.min_eq_right (by exact last), Nat.min_self]

theorem isFinite_iff : x.isFinite = true ↔ x.magnitude < lastMagnitude := by
  have bound := x.exponentField_lt
  have field : x.exponentField < 2047 ↔ x.magnitude < lastMagnitude := Nat.div_lt_iff_lt_mul (by decide)
  rw [isFinite, bne_iff_ne, ← field]
  omega

theorem isInfinite_iff : x.isInfinite = true ↔ x.magnitude = lastMagnitude := by
  have split := x.magnitude_split
  have fraction := x.fraction_lt
  rw [isInfinite, Bool.and_eq_true, beq_iff_eq, beq_iff_eq, ← split]
  unfold lastMagnitude leadingBit
  omega

theorem number_of_finite (finite : x.isFinite = true) : x.isNaN = false := by
  rw [isFinite, bne_iff_ne] at finite
  rw [isNaN, beq_false_of_ne finite, Bool.false_and]

theorem number_of_infinite (infinite : x.isInfinite = true) : x.isNaN = false := by
  rw [isInfinite, Bool.and_eq_true] at infinite
  rw [isNaN, infinite.1, bne, infinite.2]
  rfl

theorem not_finite_cases (infinite : x.isFinite = false) : x.isNaN = true ∨ x.isInfinite = true := by
  rw [isFinite, bne_eq_false_iff_eq] at infinite
  rw [isNaN, isInfinite, infinite]
  cases fraction : x.fraction == 0 with
  | true => exact .inr rfl
  | false =>
      rw [bne, fraction]
      exact .inl rfl

/-- A significand is odd exactly when the bits of its magnitude end in one. -/
theorem significand_mod_two (x : Binary64) : x.significand % 2 = x.magnitude % 2 := by
  have even : leadingBit % 2 = 0 := by decide
  rw [x.magnitude_eq, Nat.add_mod, Nat.mul_mod, even, Nat.mul_zero, Nat.zero_mod, Nat.zero_add, Nat.mod_mod]

/-! ## Values -/

/-- A rational with a sign of its own. -/
def signed (negative : Bool) (v : ℚ) : ℚ := if negative then -v else v

/-- What a finite number denotes, but for its sign. -/
def size (x : Binary64) : ℚ := x.significand * 2 ^ x.scale

/-- What a finite number denotes. -/
def value (x : Binary64) : ℚ := signed x.isNegative x.size

theorem signed_signed (negative : Bool) (v : ℚ) : signed negative (signed negative v) = v := by
  cases negative with
  | true => exact neg_neg v
  | false => rfl

theorem abs_signed (negative : Bool) (v : ℚ) : |signed negative v| = |v| := by
  cases negative with
  | true => exact abs_neg v
  | false => rfl

theorem abs_signed_sub (negative : Bool) (v w : ℚ) : |signed negative v - w| = |v - signed negative w| := by
  cases negative with
  | true =>
      change |-v - w| = |v - -w|
      rw [← abs_neg]
      ring_nf
  | false => rfl

theorem size_nonneg (x : Binary64) : 0 ≤ x.size :=
  mul_nonneg (Nat.cast_nonneg _) (zpow_nonneg (by norm_num) _)

theorem abs_value (x : Binary64) : |x.value| = x.size := by rw [value, abs_signed, abs_of_nonneg x.size_nonneg]

/-- Unless it has all bits of a significand, a number has the least scale. -/
theorem leading_or_least (x : Binary64) : leadingBit ≤ x.significand ∨ x.scale = -1074 := by
  rw [significand, scale]
  split
  · next subnormal =>
      rw [subnormal]
      exact .inr rfl
  · exact .inl (Nat.le_add_right _ _)

/-- The greater the magnitude, the greater the number. -/
theorem size_lt_size (less : x.magnitude < y.magnitude) : x.size < y.size := by
  have digits_x := x.significand_succ_le
  have digits_y := y.significand_succ_le
  have least_x := x.scale_bounds.1
  have least_y := y.scale_bounds.1
  have leading : leadingBit = 0x10000000000000 := rfl
  have normal := y.leading_or_least
  rw [x.magnitude_eq, y.magnitude_eq] at less
  rw [size, size]
  rcases Int.lt_trichotomy x.scale y.scale with lower | same | higher
  · obtain ⟨k, step⟩ := Int.le.dest (Int.add_one_le_iff.mpr lower)
    have all : leadingBit ≤ y.significand := normal.resolve_right (by omega)
    have power : (0 : ℚ) < 2 ^ x.scale := zpow_pos (by norm_num) _
    have below : (x.significand : ℚ) < 2 ^ 53 := by exact_mod_cast digits_x
    have above : (2 : ℚ) ^ 52 ≤ y.significand := by exact_mod_cast all
    have one : (1 : ℚ) ≤ 2 ^ k := one_le_pow₀ (by norm_num)
    rw [← step, zpow_add₀ (by norm_num), zpow_add_one₀ (by norm_num), zpow_natCast]
    calc (x.significand : ℚ) * 2 ^ x.scale < 2 ^ 53 * 2 ^ x.scale := by gcongr
      _ = 2 ^ 52 * (2 ^ x.scale * 2 * 1) := by ring
      _ ≤ y.significand * (2 ^ x.scale * 2 * 2 ^ k) := by gcongr
  · have fewer : x.significand < y.significand := by
      rw [same] at less
      omega
    have power : (0 : ℚ) < 2 ^ y.scale := zpow_pos (by norm_num) _
    rw [same]
    gcongr
  · obtain ⟨k, step⟩ := Int.le.dest (Int.add_one_le_iff.mpr higher)
    have all : leadingBit ≤ x.significand := x.leading_or_least.resolve_right (by omega)
    have more : (y.scale + 1074).toNat + 1 ≤ (x.scale + 1074).toNat := by omega
    have product := Nat.mul_le_mul_right leadingBit more
    rw [Nat.succ_mul] at product
    omega

/-- A finite number is told by its magnitude, but for its sign. -/
theorem parts_eq_of_magnitude (same : x.magnitude = y.magnitude) :
    x.significand = y.significand ∧ x.scale = y.scale := by
  rw [significand, significand, scale, scale, exponentField, exponentField, fraction, fraction, same]
  exact ⟨rfl, rfl⟩

theorem size_eq_of_magnitude (same : x.magnitude = y.magnitude) : x.size = y.size := by
  obtain ⟨digits, unit⟩ := parts_eq_of_magnitude same
  rw [size, size, digits, unit]

theorem magnitude_lt_iff : x.magnitude < y.magnitude ↔ x.size < y.size := by
  refine ⟨size_lt_size, fun less => ?_⟩
  rcases Nat.lt_trichotomy x.magnitude y.magnitude with below | same | above
  · exact below
  · exact absurd (size_eq_of_magnitude same) less.ne
  · exact absurd (size_lt_size above) less.not_gt

theorem magnitude_eq_iff : x.magnitude = y.magnitude ↔ x.size = y.size := by
  refine ⟨size_eq_of_magnitude, fun same => ?_⟩
  have above := magnitude_lt_iff.not.mpr same.not_gt
  have below := magnitude_lt_iff.not.mpr same.not_lt
  omega

/-- The number of some units has these bits, whether or not they carry into the next scale. -/
theorem size_ofMagnitude (negative : Bool) (least : -1074 ≤ q) (digits : m ≤ 2 ^ 53)
    (normal : q = -1074 ∨ 2 ^ 52 ≤ m) (bounded : (q + 1074).toNat * leadingBit + m ≤ lastMagnitude) :
    (ofMagnitude negative ((q + 1074).toNat * leadingBit + m)).size = m * 2 ^ q := by
  have magnitude := magnitude_ofMagnitude negative ((q + 1074).toNat * leadingBit + m)
  rw [Nat.min_eq_left bounded] at magnitude
  obtain ⟨e, unit⟩ := Int.eq_ofNat_of_zero_le (show 0 ≤ q + 1074 by omega)
  obtain rfl : q = e - 1074 := by omega
  rw [show ((e : ℤ) - 1074 + 1074).toNat = e by omega] at magnitude ⊢
  generalize ofMagnitude negative (e * leadingBit + m) = x at magnitude
  have field : x.exponentField = (e * leadingBit + m) / leadingBit := by rw [exponentField, magnitude]
  have rest : x.fraction = (e * leadingBit + m) % leadingBit := by rw [fraction, magnitude]
  rw [size, significand, scale]
  unfold leadingBit at *
  rcases Nat.lt_or_ge m 0x10000000000000 with subnormal | above
  · obtain rfl : e = 0 := by omega
    rw [Nat.zero_mul, Nat.zero_add, Nat.div_eq_of_lt subnormal] at field
    rw [Nat.zero_mul, Nat.zero_add, Nat.mod_eq_of_lt subnormal] at rest
    rw [field, rest]
    rfl
  · by_cases carried : m = 2 ^ 53
    · have exponent : x.exponentField = e + 2 := by omega
      have fraction : x.fraction = 0 := by omega
      rw [exponent, fraction, if_neg (by omega), carried,
        show ((max (e + 2) 1 : ℕ) : ℤ) - 1075 = e - 1074 + 1 by omega, zpow_add_one₀ (by norm_num)]
      norm_num
      ring
    · have exponent : x.exponentField = e + 1 := by omega
      have fraction : 0x10000000000000 + x.fraction = m := by omega
      rw [exponent, fraction, if_neg (by omega), show ((max (e + 1) 1 : ℕ) : ℤ) - 1075 = e - 1074 by omega]

theorem value_ofMagnitude (negative : Bool) (n : ℕ) :
    (ofMagnitude negative n).value = signed negative (ofMagnitude false n).size := by
  have same : (ofMagnitude negative n).magnitude = (ofMagnitude false n).magnitude := by
    rw [magnitude_ofMagnitude, magnitude_ofMagnitude]
  rw [value, isNegative_ofMagnitude, size_eq_of_magnitude same]

/-! ## Naturals near a rational -/

theorem near_self (m : ℕ) : Near m m := ⟨by linarith, by linarith, fun _ => ⟨by linarith, by linarith⟩⟩

theorem exists_near (nonneg : 0 ≤ w) : ∃ m, Near m w := by
  have low := Nat.floor_le nonneg
  have high := Nat.lt_floor_add_one w
  generalize ⌊w⌋₊ = k at low high
  rcases lt_trichotomy w (k + 1 / 2) with less | half | more
  · exact ⟨k, by linarith, less.le, fun _ => ⟨by linarith, less⟩⟩
  · rcases Nat.mod_two_eq_zero_or_one k with even | odd
    · exact ⟨k, by linarith, half.le, fun odd => by omega⟩
    · refine ⟨k + 1, ?_, ?_, fun _ => by omega⟩
      · push_cast
        linarith
      · push_cast
        linarith
  · refine ⟨k + 1, ?_, ?_, fun _ => ⟨?_, ?_⟩⟩ <;> push_cast <;> linarith

/-- No integer is nearer, and only an even natural has another one as near. -/
theorem Near.nearest (near : Near m w) (k : ℤ) :
    |m - w| ≤ |k - w| ∧ (|k - w| = |m - w| → (k : ℚ) ≠ m → m % 2 = 0) := by
  have half : |m - w| ≤ 1 / 2 := abs_le.mpr ⟨by linarith [near.high], by linarith [near.low]⟩
  by_cases same : k = m
  · subst same
    exact ⟨le_rfl, fun _ other => absurd (Int.cast_natCast m) other⟩
  · have apart : 1 ≤ |(k : ℚ) - m| := by exact_mod_cast Int.one_le_abs (sub_ne_zero.mpr same)
    have triangle : |(k : ℚ) - m| ≤ |k - w| + |m - w| := by
      rw [abs_sub_comm (m : ℚ)]
      exact abs_sub_le _ _ _
    refine ⟨by linarith, fun tie _ => ?_⟩
    by_contra odd
    obtain ⟨low, high⟩ := near.odd (by omega)
    have less : |m - w| < 1 / 2 := abs_lt.mpr ⟨by linarith, by linarith⟩
    linarith

/-- What all finite numbers denote, integers of 53 bits in units that are powers of two, is no nearer
than the natural that is nearest in the unit of a number, and the even one if it is as near. -/
theorem Near.nearest_scaled (near : Near m (v / 2 ^ q)) (normal : q = -1074 ∨ 2 ^ 52 ≤ v / 2 ^ q) {k e : ℤ}
    (least : -1074 ≤ e) (digits : |k| < 2 ^ 53) :
    |m * 2 ^ q - v| ≤ |k * 2 ^ e - v| ∧
      (|k * 2 ^ e - v| = |m * 2 ^ q - v| → (k * 2 ^ e : ℚ) ≠ m * 2 ^ q → m % 2 = 0) := by
  have unit : (0 : ℚ) < 2 ^ q := zpow_pos (by norm_num) q
  obtain ⟨w, rfl⟩ : ∃ w : ℚ, v = w * 2 ^ q := ⟨v / 2 ^ q, (div_mul_cancel₀ v unit.ne').symm⟩
  rw [mul_div_cancel_right₀ w unit.ne'] at near normal
  have scaled (t : ℚ) : |t * 2 ^ q - w * 2 ^ q| = |t - w| * 2 ^ q := by
    rw [← sub_mul, abs_mul, abs_of_pos unit]
  rcases le_or_gt q e with coarser | finer
  · obtain ⟨j, rfl⟩ := Int.le.dest coarser
    have whole : (k * 2 ^ (q + j) : ℚ) = ((k * 2 ^ j : ℤ) : ℚ) * 2 ^ q := by
      rw [zpow_add₀ (by norm_num), zpow_natCast]
      push_cast
      ring
    obtain ⟨closest, even⟩ := near.nearest (k * 2 ^ j)
    rw [whole, scaled, scaled, mul_le_mul_iff_of_pos_right unit, mul_left_inj' unit.ne', ne_eq,
      mul_left_inj' unit.ne']
    exact ⟨closest, even⟩
  · -- A number of a finer unit lies below the leading bit, which is a natural itself.
    have above := normal.resolve_left (by omega)
    have below : (k * 2 ^ e : ℚ) < 2 ^ 52 * 2 ^ q := by
      have finest : (2 : ℚ) ^ e ≤ 2 ^ (q - 1) := zpow_le_zpow_right₀ (by norm_num) (by omega)
      have bound : (k : ℚ) < 2 ^ 53 := by exact_mod_cast (abs_lt.mp digits).2
      have power : (0 : ℚ) < 2 ^ e := zpow_pos (by norm_num) e
      calc (k * 2 ^ e : ℚ) < 2 ^ 53 * 2 ^ e := by gcongr
        _ ≤ 2 ^ 53 * 2 ^ (q - 1) := by gcongr
        _ = 2 ^ 52 * 2 ^ q := by
          rw [zpow_sub_one₀ (by norm_num)]
          ring
    have leading := (near.nearest (2 ^ 52)).1
    rw [Int.cast_pow, Int.cast_ofNat, abs_of_nonpos (sub_nonpos.mpr above)] at leading
    have farther : |m * 2 ^ q - w * 2 ^ q| < |k * 2 ^ e - w * 2 ^ q| := by
      have least : 2 ^ 52 * (2 : ℚ) ^ q ≤ w * 2 ^ q := by gcongr
      rw [abs_of_neg (by linarith : (k * 2 ^ e : ℚ) - w * 2 ^ q < 0), scaled]
      calc |m - w| * 2 ^ q ≤ -(2 ^ 52 - w) * 2 ^ q := by gcongr
        _ < -(k * 2 ^ e - w * 2 ^ q) := by linarith
    exact ⟨farther.le, fun tie _ => absurd tie farther.ne'⟩

/-! ## Correct rounding -/

/-- Half a step past the largest finite number. -/
def overflow : ℚ := (2 ^ 53 - 1 / 2) * 2 ^ (971 : ℤ)

/-- A number is what a rational is rounded to: the nearest finite number, and the even one if another
is as near, or the infinity of its sign if it lies half a step or more past the last of them. -/
inductive Rounds (v : ℚ) (x : Binary64) : Prop
  | nearest (finite : x.isFinite = true) (below : |v| < overflow)
      (least : ∀ y : Binary64, y.isFinite = true → |x.value - v| ≤ |y.value - v|)
      (even : ∀ y : Binary64, y.isFinite = true → |y.value - v| = |x.value - v| → y.value ≠ x.value →
        x.significand % 2 = 0)
  | overflows (infinite : x.isInfinite = true) (beyond : overflow ≤ |v|) (sign : x.isNegative = decide (v < 0))

theorem overflow_pos : 0 < overflow := mul_pos (by norm_num) (zpow_pos (by norm_num) _)

theorem scale_le_of_finite (finite : x.isFinite = true) : x.scale ≤ 971 := by
  have field := x.exponentField_lt
  rw [isFinite, bne_iff_ne] at finite
  rw [scale]
  omega

theorem size_lt_overflow (finite : x.isFinite = true) : x.size < overflow := by
  have most : (2 : ℚ) ^ x.scale ≤ 2 ^ (971 : ℤ) := zpow_le_zpow_right₀ (by norm_num) (scale_le_of_finite finite)
  have digits : (x.significand : ℚ) + 1 ≤ 2 ^ 53 := by exact_mod_cast x.significand_succ_le
  calc x.size ≤ (2 ^ 53 - 1) * 2 ^ (971 : ℤ) :=
        mul_le_mul (by linarith) most (zpow_nonneg (by norm_num) _) (by norm_num)
    _ < overflow := mul_lt_mul_of_pos_right (by norm_num) (zpow_pos (by norm_num) _)

/-- What a finite number denotes is rounded to it. -/
theorem rounds_value (finite : x.isFinite = true) : Rounds x.value x := by
  refine .nearest finite ?_ (fun y _ => ?_) fun y _ tie other => ?_
  · rw [abs_value]
    exact size_lt_overflow finite
  · rw [sub_self, abs_zero]
    exact abs_nonneg _
  · rw [sub_self, abs_zero, abs_eq_zero] at tie
    exact absurd (sub_eq_zero.mp tie) other

/-- A finite number is an integer of 53 bits in some unit, also if its sign is changed. -/
theorem exists_scaled (y : Binary64) (negative : Bool) : ∃ k e : ℤ, -1074 ≤ e ∧ |k| < 2 ^ 53 ∧
    signed negative y.value = k * 2 ^ e := by
  have digits : (y.significand : ℤ) < 2 ^ 53 := by exact_mod_cast y.significand_succ_le
  refine ⟨if negative = y.isNegative then y.significand else -y.significand, y.scale, y.scale_bounds.1, ?_, ?_⟩
  · split
    · rwa [Nat.abs_cast]
    · rwa [abs_neg, Nat.abs_cast]
  · rw [value, size]
    cases negative <;> cases y.isNegative <;> simp [signed]

section Unit

variable (least : -1074 ≤ q) (normal : q = -1074 ∨ 2 ^ 52 ≤ v / 2 ^ q) (digits : v / 2 ^ q < 2 ^ 53)
  (near : Near m (v / 2 ^ q))

include digits near in
theorem Near.digits_le : m ≤ 2 ^ 53 := by
  have bound : (m : ℚ) < (2 ^ 53 + 1 : ℕ) := by
    push_cast
    linarith [near.low]
  exact Nat.le_of_lt_succ (by exact_mod_cast bound)

include normal near in
theorem Near.normal_or_least : q = -1074 ∨ 2 ^ 52 ≤ m := by
  refine normal.imp_right fun above => ?_
  have bound : ((2 ^ 52 : ℕ) : ℚ) < (m + 1 : ℕ) := by
    push_cast
    linarith [near.high]
  exact Nat.le_of_lt_succ (by exact_mod_cast bound)

include least normal digits near in
/-- The bits of a finite number are enough for what lies less than half a step past the last one. -/
theorem Near.bounded_iff : (q + 1074).toNat * leadingBit + m < lastMagnitude ↔ v < overflow := by
  have unit : (0 : ℚ) < 2 ^ q := zpow_pos (by norm_num) q
  have most := near.digits_le digits
  have all := near.normal_or_least normal
  unfold lastMagnitude leadingBit
  rcases lt_trichotomy q 971 with small | rfl | large
  · refine iff_of_true (by omega) ?_
    have finer : (2 : ℚ) ^ (q + 1) ≤ 2 ^ (971 : ℤ) := zpow_le_zpow_right₀ (by norm_num) (by omega)
    rw [zpow_add_one₀ (by norm_num)] at finer
    calc v < 2 ^ 53 * 2 ^ q := (div_lt_iff₀ unit).mp digits
      _ ≤ (2 ^ 54 - 1) * 2 ^ q := by
        gcongr
        norm_num
      _ = (2 ^ 53 - 1 / 2) * (2 ^ q * 2) := by ring
      _ ≤ overflow := mul_le_mul_of_nonneg_left finer (by norm_num)
  · rw [overflow, ← div_lt_iff₀ unit]
    generalize v / 2 ^ (971 : ℤ) = w at near
    constructor
    · intro bounded
      have odd : m = 2 ^ 53 - 1 ∨ m ≤ 2 ^ 53 - 2 := by omega
      rcases odd with rfl | even
      · have strict := (near.odd (by decide)).2
        norm_num at strict ⊢
        exact strict
      · have bound : (m : ℚ) + 2 ≤ 2 ^ 53 := by exact_mod_cast (show m + 2 ≤ 2 ^ 53 by omega)
        linarith [near.high]
    · intro below
      have bound : (m : ℚ) < (2 ^ 53 : ℕ) := by
        push_cast
        linarith [near.low]
      have bound : m < 2 ^ 53 := by exact_mod_cast bound
      omega
  · refine iff_of_false (by omega) (not_lt.mpr ?_)
    have coarser : (2 : ℚ) ^ ((971 : ℤ) + 1) ≤ 2 ^ q := zpow_le_zpow_right₀ (by norm_num) (by omega)
    rw [zpow_add_one₀ (by norm_num)] at coarser
    have power : (0 : ℚ) < 2 ^ (971 : ℤ) := zpow_pos (by norm_num) _
    calc overflow ≤ 2 ^ 53 * 2 ^ (971 : ℤ) := mul_le_mul_of_nonneg_right (by norm_num) power.le
      _ = 2 ^ 52 * (2 ^ (971 : ℤ) * 2) := by ring
      _ ≤ 2 ^ 52 * 2 ^ q := by gcongr
      _ ≤ v := (le_div_iff₀ unit).mp (normal.resolve_left (by omega))

include least normal digits near in
/-- The number of the natural that is nearest in its unit is what is rounded to. -/
theorem rounds_of_near (negative : Bool) (nonneg : 0 ≤ v) :
    Rounds (signed negative v) (ofMagnitude negative ((q + 1074).toNat * leadingBit + m)) := by
  have bounded := near.bounded_iff least normal digits
  have magnitude := magnitude_ofMagnitude negative ((q + 1074).toNat * leadingBit + m)
  by_cases below : v < overflow
  · have within := bounded.mpr below
    rw [Nat.min_eq_left within.le] at magnitude
    have value : (ofMagnitude negative ((q + 1074).toNat * leadingBit + m)).value =
        signed negative (m * 2 ^ q) := by
      rw [value, isNegative_ofMagnitude,
        size_ofMagnitude negative least (near.digits_le digits) (near.normal_or_least normal) within.le]
    have parity := significand_mod_two (ofMagnitude negative ((q + 1074).toNat * leadingBit + m))
    rw [magnitude, Nat.add_mod, Nat.mul_mod, show leadingBit % 2 = 0 by decide, Nat.mul_zero, Nat.zero_mod,
      Nat.zero_add, Nat.mod_mod] at parity
    have closest (y : Binary64) : |m * 2 ^ q - v| ≤ |y.value - signed negative v| ∧
        (|y.value - signed negative v| = |m * 2 ^ q - v| → y.value ≠ signed negative (m * 2 ^ q) → m % 2 = 0) := by
      obtain ⟨k, e, least', digits', scaled⟩ := y.exists_scaled negative
      obtain ⟨nearest, even⟩ := near.nearest_scaled normal least' digits'
      rw [← abs_signed_sub, scaled]
      refine ⟨nearest, fun tie other => even tie fun same => other ?_⟩
      rw [← same, ← scaled, signed_signed]
    have own : |signed negative (m * 2 ^ q) - signed negative v| = |m * 2 ^ q - v| := by
      rw [abs_signed_sub, signed_signed]
    refine .nearest (isFinite_iff.mpr (by rwa [magnitude])) ?_ ?_ ?_
    · rwa [abs_signed, abs_of_nonneg nonneg]
    · intro y _
      rw [value, own]
      exact (closest y).1
    · intro y _ tie other
      rw [value, own] at tie
      rw [value] at other
      rw [parity]
      exact (closest y).2 tie other
  · have beyond := not_lt.mp below
    have outside := not_lt.mp (bounded.not.mpr below)
    rw [Nat.min_eq_right outside] at magnitude
    have positive : 0 < v := overflow_pos.trans_le beyond
    refine .overflows (isInfinite_iff.mpr magnitude) (by rwa [abs_signed, abs_of_nonneg nonneg]) ?_
    rw [isNegative_ofMagnitude]
    cases negative with
    | true => exact (decide_eq_true (neg_lt_zero.mpr positive)).symm
    | false => exact (decide_eq_false positive.le.not_gt).symm

end Unit

/-- A quotient is rounded correctly. -/
theorem rounds_ofRatio (negative : Bool) (num : ℕ) {den : ℕ} (some_den : 0 < den) :
    Rounds (signed negative (num / den)) (ofRatio negative num den) := by
  by_cases none : num = 0
  · have finite : (zero negative).isFinite = true := by cases negative <;> decide
    have rounds := rounds_value finite
    have same : (zero negative).value = signed negative 0 := by
      rw [zero, value_ofMagnitude]
      congr 1
      exact zero_mul _
    rw [same] at rounds
    rwa [none, Nat.cast_zero, zero_div, ofRatio, if_pos rfl]
  · have some_num := Nat.pos_of_ne_zero none
    have positive : (0 : ℚ) < (num : ℚ) / den := by positivity
    obtain ⟨q, unit⟩ : ∃ q, max (Int.log 2 ((num : ℚ) / den) - 52) (-1074) = q := ⟨_, rfl⟩
    have least : -1074 ≤ q := unit ▸ le_max_right _ _
    have digits : (num : ℚ) / den / 2 ^ q < 2 ^ (53 : ℤ) := (log_lt_iff positive q 53).mp (by omega)
    have normal : q = -1074 ∨ 2 ^ (52 : ℤ) ≤ (num : ℚ) / den / 2 ^ q := by
      rw [← not_lt, ← log_lt_iff positive]
      omega
    obtain ⟨m, near⟩ := exists_near (div_nonneg positive.le (zpow_nonneg (by norm_num) q : (0 : ℚ) ≤ 2 ^ q))
    rw [ofRatio_of_near negative some_num some_den unit near]
    exact rounds_of_near least normal digits near negative positive.le

/-! ## No other number -/

theorem size_zero (negative : Bool) : (zero negative).size = 0 := by
  cases negative with
  | true => exact zero_mul _
  | false => exact zero_mul _

theorem even_zero (negative : Bool) : (zero negative).significand % 2 = 0 := by
  cases negative with
  | true => decide
  | false => decide

/-- Between two magnitudes that are even there is another one. -/
theorem exists_size (negative : Bool) (less : x.size < y.size) (even_x : x.significand % 2 = 0)
    (even_y : y.significand % 2 = 0) (finite : y.isFinite = true) :
    ∃ z : Binary64, z.isFinite = true ∧ z.isNegative = negative ∧ x.size < z.size ∧ z.size < y.size := by
  rw [significand_mod_two] at even_x even_y
  rw [isFinite_iff] at finite
  have below := magnitude_lt_iff.mpr less
  have magnitude := magnitude_ofMagnitude negative (x.magnitude + 1)
  rw [Nat.min_eq_left (by omega)] at magnitude
  refine ⟨ofMagnitude negative (x.magnitude + 1), isFinite_iff.mpr (by omega), isNegative_ofMagnitude _ _, ?_, ?_⟩
  · exact magnitude_lt_iff.mp (by omega)
  · exact magnitude_lt_iff.mp (by omega)

/-- Between two numbers with even significands there is a third. -/
theorem exists_between (finite_x : x.isFinite = true) (finite_y : y.isFinite = true)
    (even_x : x.significand % 2 = 0) (even_y : y.significand % 2 = 0) (less : x.value < y.value) :
    ∃ z : Binary64, z.isFinite = true ∧ x.value < z.value ∧ z.value < y.value := by
  have nonneg_x := x.size_nonneg
  have nonneg_y := y.size_nonneg
  unfold value at *
  cases sign_x : x.isNegative with
  | false =>
      cases sign_y : y.isNegative with
      | false =>
          rw [sign_x, sign_y] at less
          obtain ⟨z, finite, sign, above, below⟩ := exists_size false less even_x even_y finite_y
          refine ⟨z, finite, ?_⟩
          rw [sign]
          exact ⟨above, below⟩
      | true =>
          rw [sign_x, sign_y] at less
          change x.size < -y.size at less
          linarith
  | true =>
      cases sign_y : y.isNegative with
      | true =>
          rw [sign_x, sign_y] at less
          obtain ⟨z, finite, sign, above, below⟩ := exists_size true (neg_lt_neg_iff.mp less) even_y even_x finite_x
          refine ⟨z, finite, ?_⟩
          rw [sign]
          exact ⟨neg_lt_neg below, neg_lt_neg above⟩
      | false =>
          rw [sign_x, sign_y] at less
          change -x.size < y.size at less
          -- One of the two is not zero, and on its side of zero there is room.
          rcases nonneg_y.eq_or_lt with none | some_y
          · have some_x : (zero true).size < x.size := by
              rw [size_zero]
              linarith
            obtain ⟨z, finite, sign, inner, outer⟩ := exists_size true some_x (even_zero true) even_x finite_x
            rw [size_zero] at inner
            refine ⟨z, finite, ?_⟩
            rw [sign]
            change -x.size < -z.size ∧ -z.size < y.size
            constructor <;> linarith
          · rw [← size_zero false] at some_y
            obtain ⟨z, finite, sign, inner, outer⟩ := exists_size false some_y (even_zero false) even_y finite_y
            rw [size_zero] at inner
            refine ⟨z, finite, ?_⟩
            rw [sign]
            change -x.size < z.size ∧ z.size < y.size
            constructor <;> linarith

namespace Rounds

theorem least (rounds : Rounds v x) (finite : x.isFinite = true) (other : y.isFinite = true) :
    |x.value - v| ≤ |y.value - v| := by
  rcases rounds with ⟨-, -, least, -⟩ | ⟨infinite, -, -⟩
  · exact least y other
  · rw [isInfinite_iff] at infinite
    rw [isFinite_iff] at finite
    omega

variable (rounds_x : Rounds v x) (rounds_y : Rounds v y)

include rounds_x rounds_y

/-- What a rational is rounded to is determined but for the sign of zero. -/
theorem value_eq (finite : x.isFinite = true) : y.isFinite = true ∧ x.value = y.value := by
  rcases rounds_x with ⟨finite_x, below, least_x, even_x⟩ | ⟨infinite, -, -⟩
  · rcases rounds_y with ⟨finite_y, -, least_y, even_y⟩ | ⟨-, beyond, -⟩
    · refine ⟨finite_y, ?_⟩
      have tie := (least_x y finite_y).antisymm (least_y x finite_x)
      by_contra other
      have odd_x := even_x y finite_y tie.symm (Ne.symm other)
      have odd_y := even_y x finite_x tie other
      -- The rational is half way between the two, so that a third one is nearer.
      have closer {a b : Binary64} (finite_a : a.isFinite = true) (finite_b : b.isFinite = true)
          (even_a : a.significand % 2 = 0) (even_b : b.significand % 2 = 0) (less : a.value < b.value)
          (tie : |a.value - v| = |b.value - v|) :
          ∃ z : Binary64, z.isFinite = true ∧ |z.value - v| < |a.value - v| := by
        obtain ⟨z, finite_z, above, below⟩ := exists_between finite_a finite_b even_a even_b less
        have half : a.value - v = -(b.value - v) := (abs_eq_abs.mp tie).resolve_left (by linarith [less])
        refine ⟨z, finite_z, ?_⟩
        rw [abs_of_neg (by linarith : a.value - v < 0), abs_lt]
        constructor <;> linarith
      rcases lt_or_gt_of_ne other with less | more
      · obtain ⟨z, finite_z, nearer⟩ := closer finite_x finite_y odd_x odd_y less tie
        exact absurd (least_x z finite_z) nearer.not_ge
      · obtain ⟨z, finite_z, nearer⟩ := closer finite_y finite_x odd_y odd_x more tie.symm
        exact absurd (least_y z finite_z) nearer.not_ge
    · exact absurd below beyond.not_gt
  · rw [isFinite_iff] at finite
    rw [isInfinite_iff] at infinite
    omega

/-- With its sign it is determined altogether. -/
theorem unique (sign : x.isNegative = y.isNegative) : x = y := by
  have cases {z : Binary64} (rounds : Rounds v z) :
      z.isNaN = false ∧ (z.isFinite = true ∨ z.magnitude = lastMagnitude) := by
    rcases rounds with ⟨finite, -, -, -⟩ | ⟨infinite, -, -⟩
    · exact ⟨number_of_finite finite, .inl finite⟩
    · exact ⟨number_of_infinite infinite, .inr (isInfinite_iff.mp infinite)⟩
  obtain ⟨number_x, cases_x⟩ := cases rounds_x
  obtain ⟨number_y, cases_y⟩ := cases rounds_y
  have magnitude : x.magnitude = y.magnitude := by
    rcases cases_x with finite | last_x
    · obtain ⟨-, same⟩ := rounds_x.value_eq rounds_y finite
      rw [value, value, sign] at same
      have size : x.size = y.size := by
        rw [← signed_signed y.isNegative x.size, same, signed_signed]
      exact magnitude_eq_iff.mpr size
    · rcases cases_y with finite | last_y
      · have infinite := (rounds_y.value_eq rounds_x finite).1
        rw [isFinite_iff] at infinite
        omega
      · exact last_x.trans last_y.symm
  rw [← ofMagnitude_self number_x, ← ofMagnitude_self number_y, sign, magnitude]

end Rounds

end Binary64

end GuestHost
