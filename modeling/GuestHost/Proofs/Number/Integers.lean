import GuestHost.Proofs.Number.Printing
import GuestHost.Proofs.Number.Recognition

/-! Whole numbers of the format, and which integers of 64 bits are read from texts. -/

namespace GuestHost

/-! ## Whole numbers -/

namespace Binary64

variable {x : Binary64} {n : ℕ}

theorem size_eq_div (x : Binary64) :
    x.size = (x.significand * Nat.pow 2 x.scale.toNat : ℕ) / (Nat.pow 2 (-x.scale).toNat : ℕ) := by
  have power := zpow_eq_div (p := 2) (by norm_num) x.scale
  rw [Nat.cast_ofNat] at power
  rw [size, power, Nat.cast_mul, mul_div_assoc]

theorem size_eq_iff :
    x.size = n ↔ x.significand * Nat.pow 2 x.scale.toNat = n * Nat.pow 2 (-x.scale).toNat := by
  have some_den : ((Nat.pow 2 (-x.scale).toNat : ℕ) : ℚ) ≠ 0 := by
    exact_mod_cast (Nat.pow_pos (by norm_num)).ne'
  rw [size_eq_div, div_eq_iff some_den]
  exact_mod_cast Iff.rfl

theorem wholePart_eq (whole : x.size = n) : x.wholePart = n := by
  rw [wholePart, size_eq_iff.mp whole]
  exact Nat.mul_div_cancel _ (Nat.pow_pos (by norm_num))

theorem isIntegral_iff : x.isIntegral = true ↔ x.isFinite = true ∧ ∃ n : ℕ, x.size = n := by
  rw [isIntegral, Bool.and_eq_true, beq_iff_eq]
  refine and_congr_right fun _ => ⟨fun divides => ?_, ?_⟩
  · exact ⟨_, size_eq_iff.mpr (Nat.div_mul_cancel (Nat.dvd_of_mod_eq_zero divides)).symm⟩
  · rintro ⟨n, whole⟩
    rw [size_eq_iff.mp whole]
    exact Nat.mul_mod_left _ _

/-- Nothing is lost of a whole number when it is truncated. -/
theorem value_eq_truncate (whole : x.size = n) : x.value = x.truncate := by
  rw [value, truncate, wholePart_eq whole, whole, signed]
  split
  · rw [Int.cast_neg, Int.cast_natCast]
  · rw [Int.cast_natCast]

theorem size_eq_natAbs {k : ℤ} (integer : x.value = k) : x.size = k.natAbs := by
  rw [← x.abs_value, integer, Nat.cast_natAbs, Int.cast_abs]

theorem fitsInt64_iff {n : ℤ} : fitsInt64 n = true ↔ -2 ^ 63 ≤ n ∧ n < 2 ^ 63 := by
  have least : Int64.minValue.toInt = -2 ^ 63 := rfl
  have most : Int64.maxValue.toInt = 2 ^ 63 - 1 := rfl
  rw [fitsInt64, Bool.and_eq_true, decide_eq_true_eq, decide_eq_true_eq, least, most]
  omega

/-- A number is taken for an integer of 64 bits exactly if it denotes the integer. -/
theorem toInt64?_eq_some_iff {k : Int64} : x.toInt64? = some k ↔ x.isFinite = true ∧ x.value = k.toInt := by
  rw [toInt64?]
  constructor
  · intro taken
    split at taken
    · next both =>
        obtain ⟨finite, n, whole⟩ := isIntegral_iff.mp both.1
        obtain ⟨low, high⟩ := fitsInt64_iff.mp both.2
        cases taken
        rw [Int64.toInt_ofInt_of_le low high]
        exact ⟨finite, value_eq_truncate whole⟩
    · cases taken
  · rintro ⟨finite, integer⟩
    have whole := size_eq_natAbs integer
    have same : x.truncate = k.toInt := by
      have denoted := value_eq_truncate whole
      rw [integer] at denoted
      exact_mod_cast denoted.symm
    rw [same, if_pos ⟨isIntegral_iff.mpr ⟨finite, _, whole⟩, fitsInt64_iff.mpr ⟨k.le_toInt, k.toInt_lt⟩⟩,
      Int64.ofInt_toInt]

/-- A number that is taken for no integer is none, or not finite, or has a fraction, or lies past the
limits. -/
theorem of_toInt64?_eq_none (refused : x.toInt64? = none) :
    x.isNaN = true ∨ x.isInfinite = true ∨
      x.isFinite = true ∧ ((¬ ∃ n : ℤ, x.value = n) ∨ x.value < -2 ^ 63 ∨ 2 ^ 63 ≤ x.value) := by
  cases finite : x.isFinite with
  | false =>
      rcases not_finite_cases finite with nan | infinite
      · exact .inl nan
      · exact .inr (.inl infinite)
  | true =>
      refine .inr (.inr ⟨rfl, ?_⟩)
      by_contra inside
      rw [not_or, not_or, not_not, not_lt, not_le] at inside
      obtain ⟨⟨n, integer⟩, low, high⟩ := inside
      rw [integer] at low high
      have taken : x.toInt64? = some (Int64.ofInt n) := by
        rw [toInt64?_eq_some_iff, Int64.toInt_ofInt_of_le (by exact_mod_cast low) (by exact_mod_cast high)]
        exact ⟨finite, integer⟩
      rw [refused] at taken
      cases taken

end Binary64

/-! ## Decimal integers -/

open Binary64

theorem int64?_eq_some_iff {cs : List Char} {k : Int64} : int64? cs = some k ↔ Literal.Integer k.toInt cs := by
  rw [int64?, Option.bind_eq_some_iff]
  constructor
  · rintro ⟨n, read, fits⟩
    split at fits
    · next inside =>
        obtain ⟨low, high⟩ := fitsInt64_iff.mp inside
        cases fits
        rw [Int64.toInt_ofInt_of_le low high]
        exact Literal.integer?_eq_some_iff.mp read
    · cases fits
  · intro integer
    refine ⟨k.toInt, Literal.integer?_eq_some_iff.mpr integer, ?_⟩
    rw [if_pos (fitsInt64_iff.mpr ⟨k.le_toInt, k.toInt_lt⟩), Int64.ofInt_toInt]

theorem toList_toString_int (n : ℤ) :
    (toString n).toList = (if n < 0 then ['-'] else []) ++ Nat.toDigits 10 n.natAbs := by
  cases n with
  | ofNat m => exact Nat.toList_repr
  | negSucc m =>
      rw [if_pos (Int.negSucc_lt_zero m)]
      change ("-" ++ (m + 1).repr).toList = _
      rw [String.toList_append, Nat.toList_repr]
      rfl

/-- A printed integer is read as the integer. -/
theorem int64?_toString (n : Int64) : int64? (toString n.toInt).toList = some n := by
  rw [int64?, toList_toString_int, NumberLayout.integer?_signed, Option.bind_some,
    if_pos (fitsInt64_iff.mpr ⟨n.le_toInt, n.toInt_lt⟩), Int64.ofInt_toInt]

namespace Literal

variable {cs : List Char} {n m : ℤ}

/-- An integer has neither a point nor an exponent. -/
theorem Integer.listed (integer : Integer n cs) :
    ∀ c ∈ cs, c = '+' ∨ c = '-' ∨ c.isDigit = true := by
  obtain ⟨signed, digits⟩ := integer
  intro c among
  rcases List.mem_append.mp among with sign | digit
  · cases signed with
    | none => cases sign
    | plus => exact .inl (List.mem_singleton.mp sign)
    | minus => exact .inr (.inl (List.mem_singleton.mp sign))
  · exact .inr (.inr (digits.digital c digit))

/-- A text is no more than one integer. -/
theorem Integer.unique (left : Integer n cs) (right : Integer m cs) : n = m :=
  Option.some.inj ((integer?_eq_some_iff.mpr left).symm.trans (integer?_eq_some_iff.mpr right))

/-- An integer is a decimal, which is rounded like any other. -/
theorem Integer.rounds (integer : Integer n cs) : Rounds n (ofChars cs) := by
  obtain ⟨signed_sign, digits⟩ := integer
  have decimal := Decimal.mk signed_sign (.whole digits) .none
  rw [List.append_nil] at decimal
  obtain ⟨numeral, read, sign_eq, value_eq⟩ := decimal.read
  have rounds := numeral.rounds_toBinary64
  rw [sign_eq, value_eq, zpow_zero, mul_one] at rounds
  rw [ofChars_read read]
  convert rounds using 1
  rw [signed]
  split
  · rw [Int.cast_neg, Int.cast_natCast]
  · rw [Int.cast_natCast]

end Literal

/-! ## Past the limits -/

namespace Binary64

variable {x : Binary64} {n : ℤ} {m : ℕ}

/-- From the 64th bit on, numbers are two thousand and forty-eight apart. -/
theorem value_units (negative : Bool) (least : 2 ^ 52 ≤ m) (most : m ≤ 2 ^ 53) :
    (ofMagnitude negative (1085 * leadingBit + m)).isFinite = true ∧
      (ofMagnitude negative (1085 * leadingBit + m)).value = signed negative (m * 2048) := by
  have within : 1085 * leadingBit + m < lastMagnitude := by
    unfold lastMagnitude leadingBit
    omega
  have size := size_ofMagnitude (q := 11) false (by decide) most (.inr least) within.le
  refine ⟨?_, ?_⟩
  · rw [isFinite_iff, magnitude_ofMagnitude]
    omega
  · rw [value_ofMagnitude, show 1085 = ((11 : ℤ) + 1074).toNat from rfl, size]
    norm_num

/-- What lies no more than half a step below the least integer of 64 bits is rounded to it. -/
theorem Rounds.value_below (rounds : Rounds n x) (low : -2 ^ 63 - 1024 ≤ n) (high : n < -2 ^ 63) :
    x.isFinite = true ∧ x.value = -2 ^ 63 := by
  obtain ⟨u, rfl⟩ : ∃ u : ℕ, n = -(2 ^ 63 + u) := ⟨(-2 ^ 63 - n).toNat, by omega⟩
  have few : (u : ℚ) ≤ 1024 := by exact_mod_cast (show u ≤ 1024 by omega)
  have some_u : (0 : ℚ) ≤ u := Nat.cast_nonneg u
  have units : ((2 ^ 63 + u : ℕ) : ℚ) / 2 ^ (11 : ℤ) = 2 ^ 52 + u / 2048 := by
    push_cast
    norm_num
    ring
  have near : Near (2 ^ 52) (((2 ^ 63 + u : ℕ) : ℚ) / 2 ^ (11 : ℤ)) := by
    rw [units]
    refine ⟨?_, ?_, fun odd => absurd odd (by decide)⟩ <;> push_cast <;> linarith
  have nearest := rounds_of_near (by decide) (.inr (by rw [units]; linarith)) (by rw [units]; linarith) near true
    (Nat.cast_nonneg _)
  obtain ⟨finite, value⟩ := value_units true (m := 2 ^ 52) le_rfl (by decide)
  have same : signed true ((2 ^ 63 + u : ℕ) : ℚ) = ((-(2 ^ 63 + u) : ℤ) : ℚ) := by
    rw [signed, if_pos rfl]
    push_cast
    rfl
  rw [same, show ((11 : ℤ) + 1074).toNat = 1085 from rfl] at nearest
  obtain ⟨finite_x, same⟩ := nearest.value_eq rounds finite
  refine ⟨finite_x, ?_⟩
  rw [← same, value, signed, if_pos rfl]
  norm_num

/-- An integer that 64 bits do not hold is rounded to one that they hold only from half a step below
the least of them. -/
theorem Rounds.toInt64?_eq_some_iff (rounds : Rounds n x) (outside : n < -2 ^ 63 ∨ 2 ^ 63 ≤ n) {k : Int64} :
    x.toInt64? = some k ↔ k.toInt = -2 ^ 63 ∧ -2 ^ 63 - 1024 ≤ n ∧ n < -2 ^ 63 := by
  rw [Binary64.toInt64?_eq_some_iff]
  constructor
  · rintro ⟨finite, value⟩
    have closest {y : Binary64} (other : y.isFinite = true) {i : ℤ} (integer : y.value = i) :
        |k.toInt - n| ≤ |i - n| := by
      have least := rounds.least finite other
      rw [value, integer] at least
      exact_mod_cast least
    have low := k.le_toInt
    have high := k.toInt_lt
    rcases outside with below | above
    · obtain ⟨finite_last, last⟩ := value_units true (m := 2 ^ 52) le_rfl (by decide)
      obtain ⟨finite_next, next⟩ := value_units true (m := 2 ^ 52 + 1) (by decide) (by decide)
      have first := closest finite_last (i := -2 ^ 63) (by rw [last, signed, if_pos rfl]; norm_num)
      have second := closest finite_next (i := -2 ^ 63 - 2048) (by rw [next, signed, if_pos rfl]; norm_num)
      rw [abs_of_nonneg (show 0 ≤ k.toInt - n by omega)] at first second
      rw [abs_of_nonneg (show 0 ≤ -2 ^ 63 - n by omega)] at first
      rcases le_abs.mp second with farther | nearer <;> omega
    · obtain ⟨finite_next, next⟩ := value_units false (m := 2 ^ 52) le_rfl (by decide)
      have first := closest finite_next (i := 2 ^ 63) (by rw [next, signed]; norm_num)
      rw [abs_sub_comm, abs_of_nonneg (show 0 ≤ n - k.toInt by omega), abs_sub_comm,
        abs_of_nonneg (show 0 ≤ n - 2 ^ 63 by omega)] at first
      omega
  · rintro ⟨least, low, high⟩
    obtain ⟨finite, value⟩ := rounds.value_below low high
    exact ⟨finite, by rw [value, least]; norm_num⟩

end Binary64

/-! ## Both readings -/

namespace Literal

variable {cs : List Char} {n : ℤ}

/-- An integer that 64 bits hold is taken as it is, and another one as the number that it is rounded
to. -/
theorem Integer.read_iff (integer : Integer n cs) {k : Int64} :
    (int64? cs).or (ofChars cs).toInt64? = some k ↔
      k.toInt = n ∨ k.toInt = -2 ^ 63 ∧ -2 ^ 63 - 1024 ≤ n ∧ n < -2 ^ 63 := by
  by_cases inside : -2 ^ 63 ≤ n ∧ n < 2 ^ 63
  · have same : (Int64.ofInt n).toInt = n := Int64.toInt_ofInt_of_le inside.1 inside.2
    have taken : int64? cs = some (Int64.ofInt n) := int64?_eq_some_iff.mpr (by rwa [same])
    rw [taken, Option.some_or, Option.some_inj, ← Int64.toInt_inj, same]
    omega
  · have refused : int64? cs = none := by
      rw [Option.eq_none_iff_forall_ne_some]
      intro k taken
      have low := k.le_toInt
      have high := k.toInt_lt
      have same := (int64?_eq_some_iff.mp taken).unique integer
      omega
    have low := k.le_toInt
    have high := k.toInt_lt
    rw [refused, Option.none_or, integer.rounds.toInt64?_eq_some_iff (by omega)]
    omega

theorem Integer.read_none_iff (integer : Integer n cs) :
    (int64? cs).or (ofChars cs).toInt64? = none ↔ n < -2 ^ 63 - 1024 ∨ 2 ^ 63 ≤ n := by
  rw [Option.eq_none_iff_forall_ne_some]
  constructor
  · intro refused
    by_contra near
    by_cases inside : -2 ^ 63 ≤ n
    · exact refused (Int64.ofInt n) (integer.read_iff.mpr (.inl (Int64.toInt_ofInt_of_le inside (by omega))))
    · exact refused Int64.minValue (integer.read_iff.mpr (.inr ⟨rfl, by omega, by omega⟩))
  · intro far k taken
    have low := k.le_toInt
    have high := k.toInt_lt
    have read := integer.read_iff.mp taken
    omega

end Literal

end GuestHost
