import GuestHost.Proofs.Number.Fewest

/-! The interval of a number is exactly what is rounded to it, since its ends are half way to the
numbers beside it. So the decimal that is printed for a number has the fewest digits of all that are
rounded to the number, and greater numbers have greater decimals. -/

namespace GuestHost

/-! ## Distances -/

section Distances

variable {a b v : ℚ}

theorem mid_le_of_nearer (less : a < b) (nearer : |b - v| ≤ |a - v|) : a + b ≤ 2 * v := by
  by_contra beyond
  rcases le_total v a with below | above
  · rw [abs_of_nonneg (by linarith), abs_of_nonneg (by linarith)] at nearer
    linarith
  · rw [abs_of_nonneg (by linarith), abs_of_nonpos (by linarith)] at nearer
    linarith

theorem le_mid_of_nearer (less : a < b) (nearer : |a - v| ≤ |b - v|) : 2 * v ≤ a + b := by
  have mirrored := mid_le_of_nearer (a := -b) (b := -a) (v := -v) (by linarith) (by
    rwa [neg_sub_neg, neg_sub_neg, abs_sub_comm, abs_sub_comm v])
  linarith

theorem abs_sub_eq_of_mid (mid : 2 * v = a + b) : |a - v| = |b - v| := by
  rw [show a - v = -(b - v) by linarith, abs_neg]

end Distances

namespace RoundingInterval

/-- The ends of an interval. -/
def lower (r : RoundingInterval) : ℚ := r.low * 2 ^ (r.unit - 2)

@[inherit_doc lower]
def upper (r : RoundingInterval) : ℚ := r.high * 2 ^ (r.unit - 2)

theorem holds_of_ends {r : RoundingInterval} {v : ℚ} (above : r.lower ≤ v) (below : v ≤ r.upper)
    (ends : v = r.lower ∨ v = r.upper → r.closed = true) : r.Holds v where
  low := above
  high := below
  ends opened := by
    have inner : ¬ (v = r.lower ∨ v = r.upper) := fun either => by simp [ends either] at opened
    rw [not_or] at inner
    exact ⟨above.lt_of_ne' inner.1, below.lt_of_ne inner.2⟩

end RoundingInterval

namespace Binary64

variable {x y : Binary64}

theorem of_eq_of_magnitude (same : x.magnitude = y.magnitude) : RoundingInterval.of x = .of y := by
  obtain ⟨digits, unit⟩ := parts_eq_of_magnitude same
  rw [RoundingInterval.of, RoundingInterval.of, digits, unit]

theorem value_of_nonneg (finite : x.isFinite = true) : (ofMagnitude false x.magnitude).isFinite = true ∧
    (ofMagnitude false x.magnitude).value = x.size := by
  rw [isFinite_iff] at finite
  have magnitude := magnitude_ofMagnitude false x.magnitude
  rw [Nat.min_eq_left finite.le] at magnitude
  refine ⟨isFinite_iff.mpr (by omega), ?_⟩
  rw [value_ofMagnitude]
  exact size_eq_of_magnitude magnitude

/-- The sign of a number other than zero is the sign of what it denotes. -/
theorem value_neg_iff (some_x : x.isZero = false) : x.value < 0 ↔ x.isNegative = true := by
  have positive := RoundingInterval.size_pos some_x
  rw [value]
  cases x.isNegative with
  | true => exact iff_of_true (neg_lt_zero.mpr positive) rfl
  | false => exact iff_of_false positive.le.not_gt (by decide)

theorem lower_of (x : Binary64) : (RoundingInterval.of x).lower = (RoundingInterval.of x).low / 4 * 2 ^ x.scale :=
  RoundingInterval.quarter _ _

theorem upper_of (x : Binary64) : (RoundingInterval.of x).upper = (4 * x.significand + 2) / 4 * 2 ^ x.scale := by
  rw [← RoundingInterval.high_eq]
  exact RoundingInterval.quarter _ _

/-- The interval ends half way to the number below. -/
theorem exists_below (finite : x.isFinite = true) (some_x : x.isZero = false) (negative : Bool) :
    ∃ y : Binary64, y.isFinite = true ∧ y.isNegative = negative ∧ y.size < x.size ∧
      y.size + x.size = 2 * (RoundingInterval.of x).lower := by
  have least := x.scale_bounds.1
  have bits := x.magnitude_eq
  have digits := x.significand_succ_le
  have leading : leadingBit = 2 ^ 52 := rfl
  obtain ⟨some_m, normal⟩ := significand_cases some_x
  rw [isFinite_iff] at finite
  have magnitude := magnitude_ofMagnitude negative (x.magnitude - 1)
  rw [Nat.min_eq_left (by omega)] at magnitude
  refine ⟨ofMagnitude negative (x.magnitude - 1), ?_, isNegative_ofMagnitude negative _, ?_, ?_⟩
  · rw [isFinite_iff]
    omega
  · rw [← magnitude_lt_iff]
    omega
  · rw [lower_of]
    by_cases narrow : x.significand = leadingBit ∧ -1074 < x.scale
    · obtain ⟨power, above⟩ := narrow
      have unit : (x.scale + 1074).toNat = (x.scale - 1 + 1074).toNat + 1 := by omega
      have below : x.magnitude - 1 = (x.scale - 1 + 1074).toNat * leadingBit + (2 ^ 53 - 1) := by
        rw [bits, unit, power, leading]
        omega
      have size := size_ofMagnitude negative (q := x.scale - 1) (m := 2 ^ 53 - 1) (by omega) (by norm_num)
        (.inr (by norm_num)) (by omega)
      rw [below, size, Binary64.size, RoundingInterval.low_of_narrow power above, power, leading,
        zpow_sub_one₀ (by norm_num)]
      push_cast
      ring
    · have below : x.magnitude - 1 = (x.scale + 1074).toNat * leadingBit + (x.significand - 1) := by omega
      have size := size_ofMagnitude negative (q := x.scale) (m := x.significand - 1) least (by omega)
        (by omega) (by omega)
      rw [below, size, Binary64.size, RoundingInterval.low_of_wide some_x narrow, Nat.cast_sub some_m]
      push_cast
      ring

/-- The interval ends half way to the number above, or where numbers overflow. -/
theorem exists_above (finite : x.isFinite = true) (some_x : x.isZero = false) (negative : Bool) :
    (RoundingInterval.of x).upper = overflow ∨ ∃ y : Binary64, y.isFinite = true ∧ y.isNegative = negative ∧
      x.size < y.size ∧ x.size + y.size = 2 * (RoundingInterval.of x).upper := by
  have least := x.scale_bounds.1
  have most := scale_le_of_finite finite
  have bits := x.magnitude_eq
  have digits := x.significand_succ_le
  have leading : leadingBit = 2 ^ 52 := rfl
  obtain ⟨-, normal⟩ := significand_cases some_x
  rw [isFinite_iff] at finite
  rw [upper_of]
  by_cases last : x.magnitude + 1 = lastMagnitude
  · have scale : x.scale = 971 := by
      unfold lastMagnitude leadingBit at *
      omega
    have all : x.significand = 2 ^ 53 - 1 := by
      unfold lastMagnitude leadingBit at *
      omega
    left
    rw [all, scale, overflow]
    norm_num
  · have magnitude := magnitude_ofMagnitude negative (x.magnitude + 1)
    rw [Nat.min_eq_left (by omega)] at magnitude
    refine .inr ⟨ofMagnitude negative (x.magnitude + 1), ?_, isNegative_ofMagnitude negative _, ?_, ?_⟩
    · rw [isFinite_iff]
      omega
    · rw [← magnitude_lt_iff]
      omega
    · have above : x.magnitude + 1 = (x.scale + 1074).toNat * leadingBit + (x.significand + 1) := by omega
      have size := size_ofMagnitude negative (q := x.scale) (m := x.significand + 1) least digits (by omega) (by omega)
      rw [above, size, Binary64.size]
      push_cast
      ring

end Binary64

namespace RoundingInterval

variable {x y : Binary64} {v w : ℚ}

/-- What lies in the interval of a number is rounded to it, whatever the sign. -/
theorem Holds.rounds (holds : (of x).Holds v) (some_x : x.isZero = false) (negative : Bool) :
    Binary64.Rounds (Binary64.signed negative v) (Binary64.ofMagnitude negative x.magnitude) := by
  have positive : 0 < v := (zpow_pos (by norm_num) _).trans (holds.range some_x).1
  obtain ⟨num, numerator⟩ := Int.eq_ofNat_of_zero_le (Rat.num_pos.mpr positive).le
  have some_num : 0 < num := by
    have some_v := Rat.num_pos.mpr positive
    omega
  have quotient : v = (num : ℚ) / v.den := by
    rw [← Int.cast_natCast (R := ℚ) num, ← numerator, Rat.num_div_den]
  rw [quotient] at holds ⊢
  rw [← holds.ofRatio some_x some_num v.den_pos negative]
  exact Binary64.rounds_ofRatio negative num v.den_pos

/-- Nothing else is rounded to it. -/
theorem holds_of_rounds (some_x : x.isZero = false) (finite : x.isFinite = true)
    (rounds : Binary64.Rounds (Binary64.signed x.isNegative v) x) : (of x).Holds v := by
  rcases rounds with ⟨-, bounded, least, even⟩ | ⟨infinite, -, -⟩
  · have distance {y : Binary64} (sign : y.isNegative = x.isNegative) :
        |y.value - Binary64.signed x.isNegative v| = |y.size - v| := by
      rw [Binary64.value, sign, Binary64.abs_signed_sub, Binary64.signed_signed]
    have nearest {y : Binary64} (finite_y : y.isFinite = true) (sign : y.isNegative = x.isNegative) :
        |x.size - v| ≤ |y.size - v| := by
      rw [← distance rfl, ← distance sign]
      exact least y finite_y
    have tied {y : Binary64} (finite_y : y.isFinite = true) (sign : y.isNegative = x.isNegative)
        (other : y.size ≠ x.size) (tie : |y.size - v| = |x.size - v|) : (of x).closed = true := by
      rw [← distance rfl, ← distance sign] at tie
      refine decide_eq_true (even y finite_y tie fun same => other ?_)
      rw [Binary64.value, Binary64.value, sign] at same
      rw [← Binary64.signed_signed x.isNegative y.size, same, Binary64.signed_signed]
    obtain ⟨y, finite_y, sign_y, less, low⟩ := Binary64.exists_below finite some_x x.isNegative
    have above := mid_le_of_nearer less (nearest finite_y sign_y)
    have some_v : 0 ≤ v := by linarith [y.size_nonneg, x.size_nonneg]
    rw [Binary64.abs_signed, abs_of_nonneg some_v] at bounded
    have closed_low (equal : v = (of x).lower) : (of x).closed = true :=
      tied finite_y sign_y less.ne (abs_sub_eq_of_mid (by rw [low, equal]))
    rcases Binary64.exists_above finite some_x x.isNegative with high | ⟨z, finite_z, sign_z, more, high⟩
    · refine holds_of_ends (by linarith) (high ▸ bounded.le) ?_
      rintro (equal | equal)
      · exact closed_low equal
      · exact absurd (equal.trans high) bounded.ne
    · have below := le_mid_of_nearer more (nearest finite_z sign_z)
      refine holds_of_ends (by linarith) (by linarith) ?_
      rintro (equal | equal)
      · exact closed_low equal
      · exact tied finite_z sign_z more.ne' (abs_sub_eq_of_mid (by rw [high, equal])).symm
  · rw [Binary64.isInfinite_iff] at infinite
    rw [Binary64.isFinite_iff] at finite
    exact absurd infinite finite.ne

/-- The greater a number, the greater what is rounded to it. -/
theorem Holds.lt (holds_x : (of x).Holds v) (holds_y : (of y).Holds w) (some_x : x.isZero = false)
    (less : x.size < y.size) (finite : y.isFinite = true) : v < w := by
  have below := Binary64.magnitude_lt_iff.mpr less
  have finite_x : x.isFinite = true := Binary64.isFinite_iff.mpr (below.trans (Binary64.isFinite_iff.mp finite))
  have some_y : y.isZero = false := beq_eq_false_iff_ne.mpr (Nat.zero_lt_of_lt below).ne'
  obtain ⟨finite_a, value_a⟩ := Binary64.value_of_nonneg finite_x
  obtain ⟨finite_b, value_b⟩ := Binary64.value_of_nonneg finite
  have rounds_x : Binary64.Rounds v _ := holds_x.rounds some_x false
  have rounds_y : Binary64.Rounds w _ := holds_y.rounds some_y false
  have first := rounds_x.least finite_a finite_b
  have second := rounds_y.least finite_b finite_a
  rw [value_a, value_b] at first second
  have low := le_mid_of_nearer less first
  have high := mid_le_of_nearer less second
  refine lt_of_le_of_ne (by linarith) fun same => ?_
  subst same
  have equal := (rounds_x.value_eq rounds_y finite_a).2
  rw [value_a, value_b] at equal
  exact absurd equal less.ne

end RoundingInterval

end GuestHost
