import GuestHost.Proofs.Number.Nearest
import GuestHost.Proofs.Number.RoundTrip

/-! The decimal that is printed for a number has the fewest digits, and is the nearest of those that have
no more. The search starts at the grid of the first digit, takes the first grid with a point in the
interval, and finds one before the eighteenth digit. -/

namespace GuestHost

/-! ## Powers of two and of ten -/

theorem ten_pow_le_two_pow : (10 : ℚ) ^ (1233 : ℤ) ≤ 2 ^ (4096 : ℤ) := by
  exact_mod_cast (by decide +kernel : 10 ^ 1233 ≤ 2 ^ 4096)

theorem two_pow_le_ten_pow : (2 : ℚ) ^ (4096 : ℤ) ≤ 10 ^ (1234 : ℤ) := by
  exact_mod_cast (by decide +kernel : 2 ^ 4096 ≤ 10 ^ 1234)

theorem zpow_le_zpow_of_nonpos {a b : ℚ} (some_a : 0 < a) (le : a ≤ b) {n : ℤ} (nonpos : n ≤ 0) :
    b ^ n ≤ a ^ n := by
  have inverse := zpow_le_zpow_left₀ (neg_nonneg.mpr nonpos) some_a.le le
  rw [zpow_neg, zpow_neg] at inverse
  exact (inv_le_inv₀ (zpow_pos some_a n) (zpow_pos (some_a.trans_le le) n)).mp inverse

/-- Powers are compared by their powers. -/
theorem zpow_le_of_scaled {a b : ℚ} (some_a : 0 < a) (some_b : 0 < b) {m n : ℤ}
    (scaled : (a ^ (4096 : ℤ)) ^ m ≤ (b ^ (4096 : ℤ)) ^ n) : a ^ m ≤ b ^ n := by
  rw [zpow_comm a, zpow_comm b] at scaled
  exact (zpow_le_zpow_iff_left₀ (zpow_pos some_a m).le (zpow_pos some_b n).le (by norm_num)).mp scaled

theorem ten_zpow_le_two {k e : ℤ} (small : -4096 ≤ e) (below : (k + 1) * 4096 ≤ e * 1233) :
    (10 : ℚ) ^ k ≤ 2 ^ e := by
  refine zpow_le_of_scaled (by norm_num) (by norm_num) ?_
  rw [← zpow_mul]
  rcases Int.le_total 0 e with more | less
  · calc (10 : ℚ) ^ (4096 * k) ≤ 10 ^ (1233 * e) := zpow_le_zpow_right₀ (by norm_num) (by omega)
      _ = (10 ^ (1233 : ℤ)) ^ e := zpow_mul _ _ _
      _ ≤ (2 ^ (4096 : ℤ)) ^ e := zpow_le_zpow_left₀ more (by positivity) ten_pow_le_two_pow
  · calc (10 : ℚ) ^ (4096 * k) ≤ 10 ^ (1234 * e) := zpow_le_zpow_right₀ (by norm_num) (by omega)
      _ = (10 ^ (1234 : ℤ)) ^ e := zpow_mul _ _ _
      _ ≤ (2 ^ (4096 : ℤ)) ^ e := zpow_le_zpow_of_nonpos (by positivity) two_pow_le_ten_pow less

theorem two_zpow_le_ten {k e : ℤ} (large : e ≤ 2000) (above : e * 1233 ≤ k * 4096 + 1233) :
    (2 : ℚ) ^ e ≤ 10 ^ (k + 1) := by
  refine zpow_le_of_scaled (by norm_num) (by norm_num) ?_
  rw [← zpow_mul 10]
  rcases Int.le_total 0 e with more | less
  · calc ((2 : ℚ) ^ (4096 : ℤ)) ^ e ≤ (10 ^ (1234 : ℤ)) ^ e :=
          zpow_le_zpow_left₀ more (by positivity) two_pow_le_ten_pow
      _ = 10 ^ (1234 * e) := (zpow_mul _ _ _).symm
      _ ≤ 10 ^ (4096 * (k + 1)) := zpow_le_zpow_right₀ (by norm_num) (by omega)
  · calc ((2 : ℚ) ^ (4096 : ℤ)) ^ e ≤ (10 ^ (1233 : ℤ)) ^ e :=
          zpow_le_zpow_of_nonpos (by positivity) ten_pow_le_two_pow less
      _ = 10 ^ (1233 * e) := (zpow_mul _ _ _).symm
      _ ≤ 10 ^ (4096 * (k + 1)) := zpow_le_zpow_right₀ (by norm_num) (by omega)

namespace RoundingInterval

variable {x : Binary64} {r : RoundingInterval} {u v w : ℚ} {tie : Tie} {grid : ℤ} {n : ℕ}

/-! ## The value and its grids -/

/-- The value of an interval is the number it is of. -/
theorem value_eq_size (x : Binary64) : ((of x).value : ℚ) * 2 ^ ((of x).unit - 2) = x.size := by
  change ((4 * x.significand : ℕ) : ℚ) * 2 ^ (x.scale - 2) = x.size
  rw [quarter, Binary64.size]
  push_cast
  ring

theorem size_pos (some_x : x.isZero = false) : 0 < x.size :=
  mul_pos (by exact_mod_cast (Binary64.significand_cases some_x).1) (zpow_pos (by norm_num) _)

theorem holds_size (some_x : x.isZero = false) : (of x).Holds x.size := by
  rw [← value_eq_size]
  exact holds_value some_x

/-- What lies between two points of the interval is one. -/
theorem Holds.between (low : r.Holds u) (high : r.Holds w) (above : u ≤ v) (below : v ≤ w) : r.Holds v where
  low := low.low.trans above
  high := below.trans high.high
  ends opened := ⟨(low.ends opened).1.trans_le above, below.trans_lt (high.ends opened).2⟩

theorem below_iff (x : Binary64) (k : ℤ) :
    ((of x).sides k (of x).value 1).1 < ((of x).sides k (of x).value 1).2 ↔ x.size < 10 ^ k := by
  have sides := not_congr ((of x).sides_le_iff k (of x).value 1).2
  rwa [not_le, not_le, value_eq_size, Nat.cast_one, one_mul] at sides

theorem size_log2 (some_x : x.isZero = false) :
    (2 : ℚ) ^ (((of x).value.log2 : ℤ) + (of x).unit - 2) ≤ x.size ∧
      x.size < 2 ^ (((of x).value.log2 : ℤ) + (of x).unit - 2 + 1) := by
  have some_value : (of x).value ≠ 0 :=
    (Nat.mul_pos (by decide) (Binary64.significand_cases some_x).1).ne'
  have unit : (0 : ℚ) < 2 ^ ((of x).unit - 2) := zpow_pos (by norm_num) _
  have low : (2 : ℚ) ^ (of x).value.log2 ≤ (of x).value := by exact_mod_cast Nat.log2_self_le some_value
  have high : ((of x).value : ℚ) < 2 ^ ((of x).value.log2 + 1) := by exact_mod_cast Nat.lt_log2_self
  rw [← value_eq_size, add_sub_assoc, add_right_comm, zpow_add₀ (by norm_num), zpow_add₀ (by norm_num),
    zpow_natCast, ← Nat.cast_add_one, zpow_natCast]
  exact ⟨mul_le_mul_of_nonneg_right low unit.le, mul_lt_mul_of_pos_right high unit⟩

/-- The scale is where the digits of the value start. -/
theorem decimalScale_spec (some_x : x.isZero = false) :
    (10 : ℚ) ^ ((of x).decimalScale - 1) ≤ x.size ∧ x.size < 10 ^ (of x).decimalScale := by
  obtain ⟨low, high⟩ := size_log2 some_x
  have bounds := x.scale_bounds
  have digits : (of x).value.log2 < 55 := by
    refine (Nat.log2_lt ?_).mpr ?_
    · exact (Nat.mul_pos (by decide) (Binary64.significand_cases some_x).1).ne'
    · have most := x.significand_succ_le
      change 4 * x.significand < 2 ^ 55
      omega
  have unit : (of x).unit = x.scale := rfl
  unfold decimalScale
  simp only [decide_eq_true_eq, below_iff]
  rw [Int.fdiv_eq_ediv_of_nonneg _ (by norm_num)]
  generalize logarithm : ((of x).value.log2 : ℤ) + (of x).unit - 2 = e at *
  generalize quotient : e * 1233 / 4096 = k
  split
  · next below => exact ⟨(ten_zpow_le_two (by omega) (by omega)).trans low, below⟩
  · next above =>
      rw [not_lt] at above
      split
      · next below =>
          rw [add_sub_cancel_right]
          exact ⟨above, below⟩
      · next above =>
          rw [not_lt] at above
          rw [show k + 2 - 1 = k + 1 by omega, show k + 2 = k + 1 + 1 by omega]
          exact ⟨above, high.trans_le (two_zpow_le_ten (by omega) (by omega))⟩

/-- What is below the value on a grid, and the next point above it. -/
theorem floorOn_spec (x : Binary64) (grid : ℤ) : ((of x).floorOn grid : ℚ) * 10 ^ grid ≤ x.size ∧
    x.size < (((of x).floorOn grid + 1 : ℕ) : ℚ) * 10 ^ grid := by
  obtain ⟨c, positive, value, one⟩ := (of x).sides_eq grid (of x).value 1
  rw [value_eq_size] at value
  rw [Nat.cast_one, one_mul] at one
  have step : (0 : ℚ) < 10 ^ grid * c := mul_pos (zpow_pos (by norm_num) _) positive
  change (((((of x).sides grid (of x).value 1).1 / ((of x).sides grid (of x).value 1).2 : ℕ) : ℚ)) * _ ≤ _ ∧
    _ < (((((of x).sides grid (of x).value 1).1 / ((of x).sides grid (of x).value 1).2 + 1 : ℕ) : ℚ)) * _
  generalize ((of x).sides grid (of x).value 1).1 = a at value
  generalize ((of x).sides grid (of x).value 1).2 = b at one
  have some_b : 0 < b := by exact_mod_cast one ▸ step
  have low : ((a / b : ℕ) : ℚ) * b ≤ a := by exact_mod_cast Nat.div_mul_le_self a b
  have high : (a : ℚ) < ((a / b + 1 : ℕ) : ℚ) * b := by
    exact_mod_cast Nat.mul_comm b _ ▸ Nat.lt_mul_div_succ a some_b
  rw [value, one, ← mul_assoc] at low high
  exact ⟨le_of_mul_le_mul_right low positive, lt_of_mul_lt_mul_right high positive.le⟩

/-! ## Points in the interval -/

theorem pointOn?_isSome_of_contains (r : RoundingInterval) (tie : Tie) (grid : ℤ)
    (either : r.contains grid (r.floorOn grid) = true ∨ r.contains grid (r.floorOn grid + 1) = true) :
    (r.pointOn? tie grid).isSome = true := by
  unfold pointOn?
  dsimp only
  split
  · rfl
  · rfl
  · rfl
  · next left right =>
      rw [left, right] at either
      exact absurd either (by decide)

/-- If any point of a grid lies in the interval, so does one of the two beside the value, no farther away. -/
theorem contains_neighbour (some_x : x.isZero = false) {p : ℕ} (holds : (of x).Holds (p * 10 ^ grid)) :
    ((of x).contains grid ((of x).floorOn grid) = true ∧
        x.size - (of x).floorOn grid * 10 ^ grid ≤ |p * 10 ^ grid - x.size|) ∨
      ((of x).contains grid ((of x).floorOn grid + 1) = true ∧
        ((of x).floorOn grid + 1 : ℕ) * 10 ^ grid - x.size ≤ |p * 10 ^ grid - x.size|) := by
  obtain ⟨low, high⟩ := floorOn_spec x grid
  have power : (0 : ℚ) < 10 ^ grid := zpow_pos (by norm_num) _
  rcases Nat.lt_or_ge ((of x).floorOn grid) p with above | below
  · have next : (((of x).floorOn grid + 1 : ℕ) : ℚ) * 10 ^ grid ≤ p * 10 ^ grid := by
      gcongr
      exact above
    refine .inr ⟨contains_iff.mpr ((holds_size some_x).between holds high.le next), ?_⟩
    rw [abs_of_nonneg (by linarith)]
    linarith
  · have here : (p : ℚ) * 10 ^ grid ≤ (of x).floorOn grid * 10 ^ grid := by gcongr
    refine .inl ⟨contains_iff.mpr (holds.between (holds_size some_x) here low), ?_⟩
    rw [abs_of_nonpos (by linarith)]
    linarith

theorem pointOn?_isSome (some_x : x.isZero = false) {p : ℕ} (holds : (of x).Holds (p * 10 ^ grid)) :
    ((of x).pointOn? tie grid).isSome = true :=
  pointOn?_isSome_of_contains _ _ _ ((contains_neighbour some_x holds).imp And.left And.left)

/-- A grid that is finer than the interval is wide has a point in it. -/
theorem exists_point {low high step : ℚ} (positive : 0 < step) (some_high : 0 < high)
    (fine : step < high - low) : ∃ p : ℕ, low < p * step ∧ p * step < high := by
  have ratio : 0 < high / step := div_pos some_high positive
  obtain ⟨p, last⟩ := Nat.exists_eq_succ_of_ne_zero (Nat.ceil_pos.mpr ratio).ne'
  have above := Nat.le_ceil (high / step)
  have below := Nat.ceil_lt_add_one ratio.le
  rw [last, Nat.cast_succ] at above below
  rw [div_le_iff₀ positive] at above
  have below := (lt_div_iff₀ positive).mp (show (p : ℚ) < high / step by linarith)
  exact ⟨p, by linarith, below⟩

theorem low_of_narrow (power : x.significand = Binary64.leadingBit) (normal : -1074 < x.scale) :
    ((of x).low : ℚ) = 4 * x.significand - 1 := by
  have low : (of x).low = 4 * x.significand - 1 := if_pos ⟨power, normal⟩
  rw [low, Nat.cast_sub (by rw [power]; decide)]
  push_cast
  rfl

theorem low_of_wide (some_x : x.isZero = false) (wide : ¬ (x.significand = Binary64.leadingBit ∧ -1074 < x.scale)) :
    ((of x).low : ℚ) = 4 * x.significand - 2 := by
  have some_m := (Binary64.significand_cases some_x).1
  have low : (of x).low = 4 * x.significand - 2 := if_neg wide
  rw [low, Nat.cast_sub (by omega)]
  push_cast
  rfl

theorem high_eq (x : Binary64) : ((of x).high : ℚ) = 4 * x.significand + 2 := by
  change ((4 * x.significand + 2 : ℕ) : ℚ) = _
  push_cast
  rfl

/-- Seventeen digits suffice. -/
theorem seventeen_digits (some_x : x.isZero = false) :
    ∃ p : ℕ, (of x).Holds (p * 10 ^ ((of x).decimalScale - 17)) := by
  have unit : (0 : ℚ) < 2 ^ x.scale := zpow_pos (by norm_num) _
  have some_high : (0 : ℚ) < (of x).high * 2 ^ (x.scale - 2) :=
    mul_pos (by exact_mod_cast Nat.succ_pos _) (zpow_pos (by norm_num) _)
  have step : (10 : ℚ) ^ ((of x).decimalScale - 17) * 10 ^ 16 ≤ x.significand * 2 ^ x.scale := by
    have scale := (decimalScale_spec some_x).1
    rwa [show (of x).decimalScale - 1 = (of x).decimalScale - 17 + 16 by omega, zpow_add₀ (by norm_num)] at scale
  have fine : (10 : ℚ) ^ ((of x).decimalScale - 17) <
      (of x).high * 2 ^ (x.scale - 2) - (of x).low * 2 ^ (x.scale - 2) := by
    rw [quarter, quarter, high_eq]
    by_cases narrow : x.significand = Binary64.leadingBit ∧ -1074 < x.scale
    · have digits : (x.significand : ℚ) = 2 ^ 52 := by
        rw [narrow.1]
        norm_num
      rw [low_of_narrow narrow.1 narrow.2]
      rw [digits] at step ⊢
      linarith
    · have digits : (x.significand : ℚ) ≤ 2 ^ 53 := by
        have most : (x.significand : ℚ) + 1 ≤ 2 ^ 53 := by exact_mod_cast x.significand_succ_le
        linarith
      have bound : (x.significand : ℚ) * 2 ^ x.scale ≤ 2 ^ 53 * 2 ^ x.scale := by gcongr
      rw [low_of_wide some_x narrow]
      linarith
  obtain ⟨p, above, below⟩ := exists_point (zpow_pos (by norm_num) _) some_high fine
  exact ⟨p, above.le, below.le, fun _ => ⟨above, below⟩⟩

/-! ## The search -/

/-- The search takes the first grid that has a point, counted from where it starts. -/
theorem search_first (some_point : ∃ i < n, (r.pointOn? tie (grid - i)).isSome = true) :
    ∃ (i : ℕ) (d : Decimal), i < n ∧ r.search tie n grid = some d ∧ r.pointOn? tie (grid - i) = some d ∧
      ∀ j < i, r.pointOn? tie (grid - (j : ℕ)) = none := by
  induction n generalizing grid with
  | zero =>
      obtain ⟨i, less, -⟩ := some_point
      exact absurd less (Nat.not_lt_zero i)
  | succ n ih =>
      rw [search]
      cases here : r.pointOn? tie grid with
      | some d =>
          refine ⟨0, d, n.succ_pos, rfl, ?_, fun j less => absurd less (Nat.not_lt_zero j)⟩
          rwa [Nat.cast_zero, sub_zero]
      | none =>
          obtain ⟨i, less, found⟩ := some_point
          have later : ∃ i < n, (r.pointOn? tie (grid - 1 - i)).isSome = true := by
            cases i with
            | zero =>
                rw [Nat.cast_zero, sub_zero, here] at found
                cases found
            | succ i =>
                refine ⟨i, Nat.lt_of_succ_lt_succ less, ?_⟩
                rwa [sub_sub, add_comm 1, ← Nat.cast_succ]
          obtain ⟨i, d, less, searched, found, first⟩ := ih later
          refine ⟨i + 1, d, Nat.succ_lt_succ less, searched, ?_, fun j before => ?_⟩
          · rwa [sub_sub, add_comm 1, ← Nat.cast_succ] at found
          · cases j with
            | zero => rwa [Nat.cast_zero, sub_zero]
            | succ j =>
                have none := first j (Nat.lt_of_succ_lt_succ before)
                rwa [sub_sub, add_comm 1, ← Nat.cast_succ] at none

/-- A decimal that is found on a grid has digits for no more than the places down to it. -/
theorem pointOn?_digits (some_x : x.isZero = false) {d : Decimal} (found : (of x).pointOn? tie grid = some d)
    {i : ℕ} (place : grid = (of x).decimalScale - i) : d.digits ≤ 10 ^ i := by
  obtain ⟨digits, -⟩ := pointOn?_eq_some found
  have power : (0 : ℚ) < 10 ^ grid := zpow_pos (by norm_num) _
  have below : ((of x).floorOn grid : ℚ) * 10 ^ grid < 10 ^ i * 10 ^ grid := by
    rw [← zpow_natCast, ← zpow_add₀ (by norm_num), place, add_sub_cancel, ← place]
    exact (floorOn_spec x grid).1.trans_lt (decimalScale_spec some_x).2
  have below : (of x).floorOn grid < 10 ^ i := by exact_mod_cast lt_of_mul_lt_mul_right below power.le
  omega

/-- A decimal of the interval has a point on the grid where as many digits end, and no farther away. -/
theorem Holds.exists_point (some_x : x.isZero = false) {d : Decimal} (holds : (of x).Holds d.value)
    (place : grid = (of x).decimalScale - d.text.length) :
    ∃ p : ℕ, (of x).Holds (p * 10 ^ grid) ∧ |p * 10 ^ grid - x.size| ≤ |d.value - x.size| := by
  have digits : d.digits < 10 ^ d.text.length :=
    (Nat.length_toDigits_le_iff (by decide) Nat.length_toDigits_pos).mp le_rfl
  obtain ⟨k, length⟩ := Nat.exists_eq_succ_of_ne_zero (Nat.length_toDigits_pos (b := 10) (n := d.digits)).ne'
  change d.text.length = k + 1 at length
  rcases le_or_gt grid d.exponent with coarse | fine
  · obtain ⟨j, finer⟩ := Int.le.dest coarse
    have same : d.value = (d.digits * 10 ^ j : ℕ) * 10 ^ grid := by
      rw [Decimal.value, ← finer, zpow_add₀ (by norm_num), zpow_natCast]
      push_cast
      ring
    exact ⟨d.digits * 10 ^ j, same ▸ holds, same ▸ le_rfl⟩
  · -- All its digits are behind the first place of the number, where a one is nearer to it.
    have scale := (decimalScale_spec some_x).1
    have first : (10 : ℚ) ^ ((of x).decimalScale - 1) = (10 ^ k : ℕ) * 10 ^ grid := by
      rw [Nat.cast_pow, Nat.cast_ofNat, ← zpow_natCast, ← zpow_add₀ (by norm_num), place, length]
      congr 1
      omega
    have below : d.value ≤ 10 ^ ((of x).decimalScale - 1) := by
      calc d.value ≤ 10 ^ d.text.length * 10 ^ d.exponent := by
            rw [Decimal.value]
            gcongr
            exact_mod_cast digits.le
        _ = 10 ^ (d.text.length + d.exponent) := by rw [← zpow_natCast, ← zpow_add₀ (by norm_num)]
        _ ≤ 10 ^ ((of x).decimalScale - 1) := zpow_le_zpow_right₀ (by norm_num) (by omega)
    refine ⟨10 ^ k, first ▸ holds.between (holds_size some_x) below scale, ?_⟩
    rw [← first, abs_of_nonpos (by linarith), abs_of_nonpos (by linarith)]
    linarith

/-- The nearer of two neighbours is not farther away than either. -/
theorem nearer_spec (x : Binary64) (tie : Tie) {d : ℕ} (low : (d : ℚ) * 10 ^ grid ≤ x.size)
    (high : x.size ≤ (d + 1 : ℕ) * 10 ^ grid) :
    |(of x).nearer tie grid d * 10 ^ grid - x.size| ≤ x.size - d * 10 ^ grid ∧
      |(of x).nearer tie grid d * 10 ^ grid - x.size| ≤ (d + 1 : ℕ) * 10 ^ grid - x.size := by
  obtain ⟨above, below⟩ := (of x).sides_le_iff grid (2 * (of x).value) (2 * d + 1)
  rw [Nat.cast_mul, mul_assoc, value_eq_size] at above below
  push_cast at above below high ⊢
  have lower (less : 2 * x.size ≤ (2 * d + 1) * 10 ^ grid) : |(d : ℚ) * 10 ^ grid - x.size| ≤
      x.size - d * 10 ^ grid ∧ |(d : ℚ) * 10 ^ grid - x.size| ≤ (d + 1) * 10 ^ grid - x.size := by
    rw [abs_of_nonpos (by linarith)]
    constructor <;> linarith
  have upper (more : (2 * d + 1) * 10 ^ grid ≤ 2 * x.size) : |((d + 1 : ℕ) : ℚ) * 10 ^ grid - x.size| ≤
      x.size - d * 10 ^ grid ∧ |((d + 1 : ℕ) : ℚ) * 10 ^ grid - x.size| ≤ (d + 1) * 10 ^ grid - x.size := by
    push_cast
    rw [abs_of_nonneg (by linarith)]
    constructor <;> linarith
  unfold nearer
  dsimp only
  split
  · next less => exact lower (above.mp less.le)
  · next notLess =>
      have more := below.mp (not_lt.mp notLess)
      split
      · exact upper more
      · next notMore =>
          have less := above.mp (not_lt.mp notMore)
          split
          · exact upper more
          · split
            · exact lower less
            · exact upper more

/-- No point of the interval on the grid is nearer than the one that is taken. -/
theorem pointOn?_nearest (some_x : x.isZero = false) {point : Decimal}
    (found : (of x).pointOn? tie grid = some point) {p : ℕ} (holds : (of x).Holds (p * 10 ^ grid)) :
    |point.value - x.size| ≤ |p * 10 ^ grid - x.size| := by
  obtain ⟨low, high⟩ := floorOn_spec x grid
  have neighbour := contains_neighbour some_x holds
  unfold pointOn? at found
  dsimp only at found
  split at found
  · obtain ⟨lower, upper⟩ := nearer_spec x tie low high.le
    cases found
    rcases neighbour with ⟨-, near⟩ | ⟨-, near⟩
    · exact lower.trans near
    · exact upper.trans near
  · next none =>
      cases found
      rcases neighbour with ⟨-, near⟩ | ⟨here, -⟩
      · rwa [Decimal.value, abs_of_nonpos (by linarith), neg_sub]
      · rw [none] at here
        cases here
  · next none _ =>
      cases found
      rcases neighbour with ⟨here, -⟩ | ⟨-, near⟩
      · rw [none] at here
        cases here
      · rwa [Decimal.value, abs_of_nonneg (by linarith)]
  · cases found

end RoundingInterval

/-! ## The printed decimal -/

namespace Decimal

theorem strip_eq (n : ℕ) (d : Decimal) : ∃ t : ℕ, d.digits = (d.strip n).digits * 10 ^ t := by
  induction n generalizing d with
  | zero => exact ⟨0, (Nat.mul_one _).symm⟩
  | succ n ih =>
      rw [strip]
      split
      · next zero =>
          obtain ⟨t, digits⟩ := ih ⟨d.digits / 10, d.exponent + 1⟩
          refine ⟨t + 1, ?_⟩
          rw [Nat.pow_succ, ← Nat.mul_assoc, ← digits]
          exact (Nat.div_mul_cancel (Nat.dvd_of_mod_eq_zero zero.2)).symm
      · exact ⟨0, (Nat.mul_one _).symm⟩

/-- With enough steps no zero is left at the end. -/
theorem strip_mod_ten {n : ℕ} {d : Decimal} (some_d : d.digits ≠ 0) (few : d.digits < 10 ^ n) :
    (d.strip n).digits % 10 ≠ 0 := by
  induction n generalizing d with
  | zero => exact absurd (Nat.lt_one_iff.mp few) some_d
  | succ n ih =>
      rw [strip]
      split
      · exact ih (d := ⟨d.digits / 10, d.exponent + 1⟩) (by dsimp only; omega) (by dsimp only; omega)
      · next other =>
          intro zero
          exact other ⟨some_d, zero⟩

end Decimal

namespace Binary64

open RoundingInterval (of)

variable {x : Binary64} {tie : Tie} {i : ℕ} {d e : Decimal}

/-- The search for the decimal of a number stops at the first grid with a point. -/
structure Stops (x : Binary64) (tie : Tie) (i : ℕ) (d : Decimal) : Prop where
  early : i < 17
  stripped : x.shortest tie = d.strip 800
  found : (of x).pointOn? tie ((of x).decimalScale - (i + 1 : ℕ)) = some d
  first : ∀ j < i, (of x).pointOn? tie ((of x).decimalScale - (j + 1 : ℕ)) = none

theorem exists_stops (some_x : x.isZero = false) (tie : Tie) : ∃ i d, Stops x tie i d := by
  have place (i : ℕ) : (of x).decimalScale - 1 - i = (of x).decimalScale - (i + 1 : ℕ) := by omega
  obtain ⟨p, holds⟩ := RoundingInterval.seventeen_digits some_x
  have last : (16 : ℕ) < 17 ∧ ((of x).pointOn? tie ((of x).decimalScale - 1 - (16 : ℕ))).isSome = true :=
    ⟨by decide, RoundingInterval.pointOn?_isSome some_x (place 16 ▸ holds)⟩
  obtain ⟨i, d, less, searched, found, first⟩ := RoundingInterval.search_first ⟨16, last⟩
  refine ⟨i, d, less, ?_, place i ▸ found, fun j before => place j ▸ first j before⟩
  rw [shortest, searched, Option.getD_some]

namespace Stops

variable (stops : Stops x tie i d) (some_x : x.isZero = false)

include stops some_x

/-- The digits end no later than at the grid of the search, and not in a zero. -/
theorem digits : (x.shortest tie).digits % 10 ≠ 0 ∧ (x.shortest tie).text.length ≤ i + 1 := by
  have early := stops.early
  have digits := RoundingInterval.pointOn?_digits some_x stops.found rfl
  have some_d : d.digits ≠ 0 := by
    intro none
    have positive := ((RoundingInterval.pointOn?_holds stops.found).range some_x).1
    rw [Decimal.value, none, Nat.cast_zero, zero_mul] at positive
    exact absurd positive (zpow_pos (by norm_num) _).not_gt
  have few {k : ℕ} (more : i + 1 < k) : d.digits < 10 ^ k :=
    digits.trans_lt (Nat.pow_lt_pow_right (by decide) more)
  have ended := Decimal.strip_mod_ten some_d (few (show i + 1 < 800 by omega))
  rw [stops.stripped]
  refine ⟨ended, (Nat.length_toDigits_le_iff (by decide) i.succ_pos).mpr ?_⟩
  obtain ⟨t, zeros⟩ := Decimal.strip_eq 800 d
  have most : (d.strip 800).digits ≤ d.digits := zeros ▸ Nat.le_mul_of_pos_right _ (Nat.pow_pos (by decide))
  refine lt_of_le_of_ne (most.trans digits) fun all => ended ?_
  rw [all, Nat.pow_succ, Nat.mul_mod_left]

/-- No decimal of the interval ends on an earlier grid. -/
theorem lt_length (holds : (of x).Holds e.value) : i < e.text.length := by
  obtain ⟨k, length⟩ := Nat.exists_eq_succ_of_ne_zero (Nat.length_toDigits_pos (b := 10) (n := e.digits)).ne'
  change e.text.length = k + 1 at length
  by_contra fewer
  obtain ⟨p, point, -⟩ := holds.exists_point some_x rfl
  have found : ((of x).pointOn? tie _).isSome = true := RoundingInterval.pointOn?_isSome some_x point
  rw [length, stops.first k (by omega)] at found
  cases found

theorem length_eq : (x.shortest tie).text.length = i + 1 :=
  (stops.digits some_x).2.antisymm (stops.lt_length some_x (shortest_holds some_x tie))

end Stops

/-- The printed digits do not end in a zero. -/
theorem shortest_mod_ten (some_x : x.isZero = false) (tie : Tie) : (x.shortest tie).digits % 10 ≠ 0 := by
  obtain ⟨i, d, stops⟩ := exists_stops some_x tie
  exact (stops.digits some_x).1

theorem length_shortest (some_x : x.isZero = false) (tie : Tie) : (x.shortest tie).text.length ≤ 17 := by
  obtain ⟨i, d, stops⟩ := exists_stops some_x tie
  have early := stops.early
  rw [stops.length_eq some_x]
  omega

/-- No decimal of the interval has fewer digits than the one that is printed. -/
theorem shortest_fewest (some_x : x.isZero = false) (tie : Tie) (holds : (of x).Holds e.value) :
    (x.shortest tie).text.length ≤ e.text.length := by
  obtain ⟨i, d, stops⟩ := exists_stops some_x tie
  rw [stops.length_eq some_x]
  exact stops.lt_length some_x holds

/-- Of those with as many digits none is nearer to the number. -/
theorem shortest_nearest (some_x : x.isZero = false) (tie : Tie) (holds : (of x).Holds e.value)
    (as_many : e.text.length = (x.shortest tie).text.length) :
    |(x.shortest tie).value - x.size| ≤ |e.value - x.size| := by
  obtain ⟨i, d, stops⟩ := exists_stops some_x tie
  rw [stops.length_eq some_x] at as_many
  obtain ⟨p, point, near⟩ := holds.exists_point some_x rfl
  rw [as_many] at point near
  have nearest := RoundingInterval.pointOn?_nearest some_x stops.found point
  rw [stops.stripped, Decimal.value_strip]
  exact nearest.trans near

end Binary64

end GuestHost
