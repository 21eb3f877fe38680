import GuestHost.Proofs.Number.Rounding

/-! The decimal that is printed for a number reads back as the number: wherever the search stops,
and if it does not, the decimal lies in the interval of what rounds to the number. -/

namespace GuestHost

namespace Decimal

/-- What a decimal denotes. -/
def value (d : Decimal) : ℚ := d.digits * 10 ^ d.exponent

/-- Zeros at the end of the digits are for the exponent to tell. -/
theorem value_strip (n : ℕ) (d : Decimal) : (d.strip n).value = d.value := by
  induction n generalizing d with
  | zero => rfl
  | succ n ih =>
      rw [strip]
      split
      · next zero =>
          have digits : d.digits = d.digits / 10 * 10 := by omega
          rw [ih, value, value, zpow_add_one₀ (by norm_num)]
          dsimp only
          conv_rhs => rw [digits]
          push_cast
          ring
      · rfl

end Decimal

namespace RoundingInterval

variable {r : RoundingInterval} {tie : Tie} {grid : ℤ} {d n : ℕ}

/-! ## Points in the interval -/

/-- Both sides of a comparison, as the numbers that are compared. -/
theorem sides_eq (r : RoundingInterval) (grid : ℤ) (n d : ℕ) : ∃ c : ℚ, 0 < c ∧
    ((r.sides grid n d).1 : ℚ) = n * 2 ^ (r.unit - 2) * c ∧ ((r.sides grid n d).2 : ℚ) = d * 10 ^ grid * c := by
  have two := zpow_eq_div (p := 2) (by norm_num) (r.unit - 2)
  have ten := zpow_eq_div (p := 10) (by norm_num) grid
  have below : (0 : ℚ) < (Nat.pow 2 (2 - r.unit).toNat : ℕ) := by exact_mod_cast Nat.pow_pos (by norm_num)
  have below' : (0 : ℚ) < (Nat.pow 10 (-grid).toNat : ℕ) := by exact_mod_cast Nat.pow_pos (by norm_num)
  rw [neg_sub, Nat.cast_ofNat] at two
  rw [Nat.cast_ofNat] at ten
  refine ⟨(Nat.pow 2 (2 - r.unit).toNat : ℕ) * (Nat.pow 10 (-grid).toNat : ℕ), mul_pos below below', ?_, ?_⟩
  · rw [two, sides]
    push_cast
    field_simp
  · rw [ten, sides]
    push_cast
    field_simp

/-- A decimal is compared with a bound by the two sides. -/
theorem sides_le_iff (r : RoundingInterval) (grid : ℤ) (n d : ℕ) :
    ((r.sides grid n d).1 ≤ (r.sides grid n d).2 ↔ (n : ℚ) * 2 ^ (r.unit - 2) ≤ d * 10 ^ grid) ∧
      ((r.sides grid n d).2 ≤ (r.sides grid n d).1 ↔ (d : ℚ) * 10 ^ grid ≤ n * 2 ^ (r.unit - 2)) := by
  obtain ⟨c, positive, bound, point⟩ := r.sides_eq grid n d
  constructor
  · rw [← @Nat.cast_le ℚ, bound, point, mul_le_mul_iff_of_pos_right positive]
  · rw [← @Nat.cast_le ℚ, bound, point, mul_le_mul_iff_of_pos_right positive]

/-- The test for a point of a grid decides whether it lies in the interval. -/
theorem contains_iff : r.contains grid d = true ↔ r.Holds (d * 10 ^ grid) := by
  have low := (r.sides_le_iff grid r.low d).1
  have low' := not_congr (r.sides_le_iff grid r.low d).2
  have high := (r.sides_le_iff grid r.high d).2
  have high' := not_congr (r.sides_le_iff grid r.high d).1
  rw [not_le, not_le] at low' high'
  change (if r.closed then decide ((r.sides grid r.low d).1 ≤ (r.sides grid r.low d).2) &&
      decide ((r.sides grid r.high d).2 ≤ (r.sides grid r.high d).1)
    else decide ((r.sides grid r.low d).1 < (r.sides grid r.low d).2) &&
      decide ((r.sides grid r.high d).2 < (r.sides grid r.high d).1)) = true ↔ _
  cases closed : r.closed with
  | true =>
      rw [if_pos rfl, Bool.and_eq_true, decide_eq_true_eq, decide_eq_true_eq, low, high]
      constructor
      · rintro ⟨above, below⟩
        exact ⟨above, below, fun opened => by rw [closed] at opened; cases opened⟩
      · intro holds
        exact ⟨holds.low, holds.high⟩
  | false =>
      rw [if_neg (by decide), Bool.and_eq_true, decide_eq_true_eq, decide_eq_true_eq, low', high']
      constructor
      · rintro ⟨above, below⟩
        exact ⟨above.le, below.le, fun _ => ⟨above, below⟩⟩
      · intro holds
        exact holds.ends closed

theorem nearer_cases (r : RoundingInterval) (tie : Tie) (grid : ℤ) (d : ℕ) :
    r.nearer tie grid d = d ∨ r.nearer tie grid d = d + 1 := by
  unfold nearer
  dsimp only
  split
  · exact .inl rfl
  · split
    · exact .inr rfl
    · split
      · exact .inr rfl
      · split
        · exact .inl rfl
        · exact .inr rfl

/-- A point that is taken lies in the interval. -/
theorem pointOn?_holds {point : Decimal} (found : r.pointOn? tie grid = some point) : r.Holds point.value := by
  unfold pointOn? at found
  dsimp only at found
  split at found
  · next here next =>
      cases found
      rcases r.nearer_cases tie grid (r.floorOn grid) with same | same
      · rw [Decimal.value, same]
        exact contains_iff.mp here
      · rw [Decimal.value, same]
        exact contains_iff.mp next
  · next here _ =>
      cases found
      exact contains_iff.mp here
  · next _ next =>
      cases found
      exact contains_iff.mp next
  · cases found

theorem search_holds {point : Decimal} (found : r.search tie n grid = some point) : r.Holds point.value := by
  induction n generalizing grid with
  | zero => cases found
  | succ n ih =>
      rw [search, Option.or_eq_some_iff] at found
      rcases found with here | ⟨_, later⟩
      · exact pointOn?_holds here
      · exact ih later

/-! ## The number itself -/

/-- The value itself is a decimal, since two divides ten. -/
theorem value_exact (r : RoundingInterval) : r.exact.value = r.value * 2 ^ (r.unit - 2) := by
  have two := zpow_eq_div (p := 2) (by norm_num) (r.unit - 2)
  rw [neg_sub, Nat.cast_ofNat] at two
  have ten : (10 : ℚ) ^ (2 - r.unit).toNat = 2 ^ (2 - r.unit).toNat * 5 ^ (2 - r.unit).toNat := by
    rw [← mul_pow]
    norm_num
  rw [Decimal.value, exact, two]
  dsimp only
  rw [zpow_neg, zpow_natCast, ten, cast_pow]
  push_cast [cast_pow]
  field_simp

/-- A number that is not zero lies in its own interval. -/
theorem holds_value {x : Binary64} (some_x : x.isZero = false) : (of x).Holds ((of x).value * 2 ^ (x.scale - 2)) := by
  have unit : (0 : ℚ) < 2 ^ (x.scale - 2) := zpow_pos (by norm_num) _
  obtain ⟨some_m, -⟩ := Binary64.significand_cases some_x
  have low : (of x).low < (of x).value := by
    rw [of]
    split
    · dsimp only
      omega
    · dsimp only
      omega
  have high : (of x).value < (of x).high := by
    change 4 * x.significand < 4 * x.significand + 2
    omega
  have above : ((of x).low : ℚ) * 2 ^ (x.scale - 2) < (of x).value * 2 ^ (x.scale - 2) := by gcongr
  have below : ((of x).value : ℚ) * 2 ^ (x.scale - 2) < (of x).high * 2 ^ (x.scale - 2) := by gcongr
  exact ⟨above.le, below.le, fun _ => ⟨above, below⟩⟩

end RoundingInterval

/-- The shortest decimal of a number rounds to it. -/
theorem Binary64.shortest_holds {x : Binary64} (some_x : x.isZero = false) (tie : Tie) :
    (RoundingInterval.of x).Holds (x.shortest tie).value := by
  rw [shortest, Decimal.value_strip]
  cases found : (RoundingInterval.of x).search tie 17 ((RoundingInterval.of x).decimalScale - 1) with
  | some d => exact RoundingInterval.search_holds found
  | none =>
      rw [Option.getD_none, RoundingInterval.value_exact]
      exact RoundingInterval.holds_value some_x

end GuestHost
