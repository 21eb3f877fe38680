import GuestHost.Proofs.Number.Numerals
import GuestHost.Proofs.Utf8

/-! What is printed for a number is read as the number. The text shows a decimal in the interval of
what rounds to the number, the reader finds that decimal in it, and no number is so far outside the
format that its digits are not looked at. -/

namespace GuestHost

variable {x : Binary64}

/-! ## Sizes -/

theorem ten_pow_lt_half : (10 : ℚ) ^ (-324 : ℤ) < 2⁻¹ * 2 ^ (-1074 : ℤ) := by
  have power : (2 : ℚ) ^ 1075 < 10 ^ 324 := by exact_mod_cast (by decide +kernel : 2 ^ 1075 < 10 ^ 324)
  calc (10 : ℚ) ^ (-324 : ℤ) = (10 ^ 324)⁻¹ := zpow_neg 10 _
    _ < (2 ^ 1075)⁻¹ := inv_strictAnti₀ (by positivity) power
    _ = 2⁻¹ * (2 ^ 1074)⁻¹ := by rw [← mul_inv, ← pow_succ']
    _ = 2⁻¹ * 2 ^ (-1074 : ℤ) := by rw [zpow_neg]; rfl

theorem last_lt_ten_pow : (2 : ℚ) ^ 53 * 2 ^ (972 : ℤ) < 10 ^ (309 : ℤ) := by
  exact_mod_cast (by decide +kernel : 2 ^ 53 * 2 ^ 972 < 10 ^ 309)

/-- What rounds to a number with digits of its own is not far outside the format. -/
theorem RoundingInterval.Holds.range {v : ℚ} (holds : (of x).Holds v) (some_x : x.isZero = false) :
    (10 : ℚ) ^ (-324 : ℤ) < v ∧ v < 10 ^ (309 : ℤ) := by
  have near := holds.near
  have unit : (0 : ℚ) < 2 ^ x.scale := zpow_pos (by norm_num) _
  obtain ⟨some_m, -⟩ := Binary64.significand_cases some_x
  constructor
  · have least : (2 : ℚ) ^ (-1074 : ℤ) ≤ 2 ^ x.scale := zpow_le_zpow_right₀ (by norm_num) x.scale_bounds.1
    have half : 2⁻¹ ≤ v / 2 ^ x.scale := by
      have one : (1 : ℚ) ≤ x.significand := by exact_mod_cast some_m
      linarith [near.low]
    calc (10 : ℚ) ^ (-324 : ℤ) < 2⁻¹ * 2 ^ (-1074 : ℤ) := ten_pow_lt_half
      _ ≤ 2⁻¹ * 2 ^ x.scale := by gcongr
      _ ≤ v := (le_div_iff₀ unit).mp half
  · have most : (2 : ℚ) ^ x.scale ≤ 2 ^ (972 : ℤ) := zpow_le_zpow_right₀ (by norm_num) x.scale_bounds.2
    have whole : v / 2 ^ x.scale ≤ 2 ^ 53 := by
      have bound : (x.significand : ℚ) + 1 ≤ 2 ^ 53 := by exact_mod_cast x.significand_succ_le
      linarith [near.high]
    calc v ≤ 2 ^ 53 * 2 ^ x.scale := (div_le_iff₀ unit).mp whole
      _ ≤ 2 ^ 53 * 2 ^ (972 : ℤ) := by gcongr
      _ < 10 ^ (309 : ℤ) := last_lt_ten_pow

namespace Numeral

variable {n : Numeral}

/-- How many digits there are before the point, or zeros behind it if the count is negative. -/
def size (n : Numeral) : ℤ := (Nat.toDigits 10 n.digits).length + n.exponent

theorem value_range (some_digits : n.digits ≠ 0) : (10 : ℚ) ^ (n.size - 1) ≤ n.value ∧ n.value < 10 ^ n.size := by
  have power : (0 : ℚ) < 10 ^ n.exponent := zpow_pos (by norm_num) _
  obtain ⟨k, length⟩ := Nat.exists_eq_succ_of_ne_zero (Nat.length_toDigits_pos (b := 10) (n := n.digits)).ne'
  have below : n.digits < 10 ^ (k + 1) :=
    (Nat.length_toDigits_le_iff (by decide) k.succ_pos).mp length.le
  have above : 10 ^ k ≤ n.digits := by
    cases k with
    | zero => exact Nat.one_le_iff_ne_zero.mpr some_digits
    | succ k =>
        by_contra less
        have short := (Nat.length_toDigits_le_iff (by decide) k.succ_pos).mpr (Nat.lt_of_not_le less)
        omega
  rw [size, length, value]
  constructor
  · calc (10 : ℚ) ^ ((k.succ : ℤ) + n.exponent - 1) = 10 ^ k * 10 ^ n.exponent := by
          rw [← zpow_natCast, ← zpow_add₀ (by norm_num)]
          congr 1
          push_cast
          ring
      _ ≤ n.digits * 10 ^ n.exponent := by
          gcongr
          exact_mod_cast above
  · calc (n.digits * 10 ^ n.exponent : ℚ) < 10 ^ (k + 1) * 10 ^ n.exponent := by
          gcongr
          exact_mod_cast below
      _ = (10 : ℚ) ^ ((k.succ : ℤ) + n.exponent) := by
          rw [← zpow_natCast, ← zpow_add₀ (by norm_num), Nat.succ_eq_add_one]

theorem value_eq_div (n : Numeral) :
    n.value = (n.digits * Nat.pow 10 n.exponent.toNat : ℕ) / (Nat.pow 10 (-n.exponent).toNat : ℕ) := by
  rw [value, ← Nat.cast_ofNat, zpow_eq_div (by decide), Nat.cast_mul, mul_div_assoc]

/-- A numeral in the interval of a number is read as the number. -/
theorem toBinary64_of_holds (holds : (RoundingInterval.of x).Holds n.value) (some_x : x.isZero = false) :
    n.toBinary64 = .ofMagnitude n.negative x.magnitude := by
  obtain ⟨small, large⟩ := holds.range some_x
  have some_digits : n.digits ≠ 0 := by
    intro none
    rw [value, none, Nat.cast_zero, zero_mul] at small
    exact absurd small (zpow_pos (by norm_num) _).not_gt
  obtain ⟨low, high⟩ := value_range some_digits
  have most := (zpow_lt_zpow_iff_right₀ (by norm_num)).mp (low.trans_lt large)
  have least := (zpow_lt_zpow_iff_right₀ (by norm_num)).mp (small.trans high)
  rw [toBinary64, if_neg some_digits]
  change (if 310 < n.size then _ else if n.size < -330 then _ else _) = _
  rw [if_neg (by omega), if_neg (by omega)]
  rw [n.value_eq_div] at holds
  exact holds.ofRatio some_x (Nat.mul_pos (Nat.pos_of_ne_zero some_digits) (Nat.pow_pos (by decide)))
    (Nat.pow_pos (by decide)) n.negative

end Numeral

/-! ## Characters -/

/-- The characters that numerals are printed with. -/
def numeralChars : List Char := "0123456789.e+-".toList

theorem digit_listed {c : Char} (digit : c.isDigit = true) : c ∈ numeralChars := by
  have all : ∀ n ≤ 57, 48 ≤ n → Char.ofNat n ∈ numeralChars := by decide
  obtain ⟨low, high⟩ := Char.isDigit_iff_toNat.mp digit
  rw [← Char.ofNat_toNat c]
  exact all c.toNat high low

theorem Digital.listed {cs : List Char} (digits : Digital cs) : cs ⊆ numeralChars :=
  fun c listed => digit_listed (digits c listed)

theorem Spelling.Proper.listed {s : Spelling} (proper : s.Proper) : s.text ⊆ numeralChars := by
  have point : (if s.fraction.isEmpty then [] else '.' :: s.fraction) ⊆ numeralChars := by
    split
    · exact List.nil_subset _
    · exact List.cons_subset.mpr ⟨by decide, proper.fraction.listed⟩
  have mark : mark s.exponent ⊆ numeralChars := by
    cases s.exponent with
    | none => exact List.nil_subset _
    | some e =>
        refine List.cons_subset.mpr ⟨by decide, List.cons_subset.mpr ⟨?_, (Digital.toDigits e.natAbs).listed⟩⟩
        split <;> decide
  exact List.append_subset.mpr ⟨proper.whole.listed, List.append_subset.mpr ⟨point, mark⟩⟩

namespace Binary64

/-- No blank is one of them. -/
theorem trim_listed {cs : List Char} (listed : cs ⊆ numeralChars) : Blank.trim cs = cs := by
  have all : numeralChars.all (fun c => !Blank.isBlank c) = true := by decide
  have none : ∀ c ∈ numeralChars, ¬ Blank.isBlank c = true := by simpa using all
  have kept : ∀ rest ⊆ numeralChars, rest.dropWhile Blank.isBlank = rest := by
    intro rest within
    cases rest with
    | nil => rfl
    | cons c rest => exact List.dropWhile_cons_of_neg (none c (within List.mem_cons_self))
  have back : cs.reverse ⊆ numeralChars := fun c within => listed (List.mem_reverse.mp within)
  rw [Blank.trim, kept cs listed, kept cs.reverse back, List.reverse_reverse]

theorem splitSign_subset (cs : List Char) : (splitSign cs).2 ⊆ cs := by
  unfold splitSign
  split
  · exact List.subset_cons_self _ _
  · exact List.subset_cons_self _ _
  · exact List.Subset.refl _

/-- No prefix consists of them, nor the word for an infinity. -/
theorem ofChars_listed {cs : List Char} (some_cs : cs ≠ []) (listed : cs ⊆ numeralChars) :
    ofChars cs = ((Numeral.ofChars? cs).map Numeral.toBinary64).getD nan := by
  have second {c d : Char} {rest : List Char} (start : c :: d :: rest ⊆ numeralChars) : d ∈ numeralChars :=
    start (List.mem_cons_of_mem c List.mem_cons_self)
  unfold ofChars
  split
  · exact absurd rfl some_cs
  · exact absurd (second listed) (by decide : 'x' ∉ numeralChars)
  · exact absurd (second listed) (by decide : 'X' ∉ numeralChars)
  · exact absurd (second listed) (by decide : 'o' ∉ numeralChars)
  · exact absurd (second listed) (by decide : 'O' ∉ numeralChars)
  · exact absurd (second listed) (by decide : 'b' ∉ numeralChars)
  · exact absurd (second listed) (by decide : 'B' ∉ numeralChars)
  · have finite : (splitSign cs).2 ≠ "Infinity".toList := by
      intro word
      have inside := splitSign_subset cs
      rw [word] at inside
      exact absurd (listed (inside (by decide))) (by decide : 'I' ∉ numeralChars)
    dsimp only
    rw [if_neg finite]

/-! ## Numbers -/

/-- What is read for a number: itself, but zero without its sign and one NaN for all. -/
def readBack (x : Binary64) : Binary64 :=
  if x.isNaN then nan else if x.isZero then zero false else x

theorem number_of_zero (zero : x.isZero = true) : x.isNaN = false := by
  have none : x.magnitude = 0 := by simpa [isZero] using zero
  rw [isNaN, exponentField, none]
  rfl

theorem infinite_cases (infinite : x.isInfinite = true) :
    x.isNaN = false ∧ x.isZero = false ∧ x = infinity x.isNegative := by
  have parts : x.exponentField = 2047 ∧ x.fraction = 0 := by simpa [isInfinite] using infinite
  obtain ⟨exponent, fraction⟩ := parts
  have number : x.isNaN = false := by
    rw [isNaN, fraction]
    exact Bool.and_false _
  have split := x.magnitude_split
  rw [exponent, fraction] at split
  have self := ofMagnitude_self number
  rw [← split] at self
  refine ⟨number, ?_, self.symm⟩
  rw [isZero, ← split]
  rfl

theorem readBack_isNaN (x : Binary64) : x.readBack.isNaN = x.isNaN := by
  rw [readBack]
  by_cases number : x.isNaN = true
  · rw [if_pos number, number]
    rfl
  · rw [if_neg number]
    split
    · rw [Bool.eq_false_iff.mpr number]
      rfl
    · rfl

theorem readBack_isZero (x : Binary64) : x.readBack.isZero = x.isZero := by
  rw [readBack]
  by_cases zero : x.isZero = true
  · rw [number_of_zero zero, if_neg (by decide), if_pos zero, zero]
    rfl
  · rw [if_neg zero]
    split
    · rw [Bool.eq_false_iff.mpr zero]
      rfl
    · rfl

/-- No two other numbers are read as the same one. -/
theorem of_readBack_eq {y : Binary64} (same : x.readBack = y.readBack) :
    x = y ∨ (x.isZero = true ∧ y.isZero = true) ∨ (x.isNaN = true ∧ y.isNaN = true) := by
  have nans : x.isNaN = y.isNaN := by rw [← readBack_isNaN, same, readBack_isNaN]
  have zeros : x.isZero = y.isZero := by rw [← readBack_isZero, same, readBack_isZero]
  by_cases number : x.isNaN = true
  · exact .inr (.inr ⟨number, nans ▸ number⟩)
  · by_cases zero : x.isZero = true
    · exact .inr (.inl ⟨zero, zeros ▸ zero⟩)
    · rw [readBack, readBack, ← nans, ← zeros, if_neg number, if_neg zero, if_neg number, if_neg zero] at same
      exact .inl same

/-! ## Texts -/

/-- A text that shows a decimal in the interval of a number is read as the number, or with a sign
as its negative. -/
theorem ofChars_shows {s : Spelling} {cs : List Char} {v : ℚ} (shows : s.Shows cs v)
    (holds : (RoundingInterval.of x).Holds v) (some_x : x.isZero = false) :
    ofChars (Blank.trim cs) = ofMagnitude false x.magnitude ∧
      ofChars (Blank.trim ('-' :: cs)) = ofMagnitude true x.magnitude := by
  obtain ⟨proper, rfl, rfl⟩ := shows
  have signed : '-' :: s.text ⊆ numeralChars := List.cons_subset.mpr ⟨by decide, proper.listed⟩
  constructor
  · obtain ⟨c, cs, text, -⟩ := proper.head
    have some_text : s.text ≠ [] := text ▸ List.cons_ne_nil c cs
    rw [trim_listed proper.listed, ofChars_listed some_text proper.listed, proper.ofChars?_body proper.splitSign_text]
    exact Numeral.toBinary64_of_holds (n := s.numeral false) holds some_x
  · rw [trim_listed signed, ofChars_listed (List.cons_ne_nil _ _) signed, proper.ofChars?_body rfl]
    exact Numeral.toBinary64_of_holds (n := s.numeral true) holds some_x

theorem chars_nan (nan : x.isNaN = true) : NumberLayout.script.chars x = "NaN".toList := if_pos nan

/-- Zero has one text, whatever its sign. -/
theorem chars_zero (zero : x.isZero = true) : NumberLayout.script.chars x = ['0'] := by
  have finite : ¬ x.isInfinite = true := by
    intro infinite
    obtain ⟨-, some_x, -⟩ := infinite_cases infinite
    rw [zero] at some_x
    cases some_x
  have bare : NumberLayout.script.signedZero = false := rfl
  rw [NumberLayout.chars, number_of_zero zero, if_neg (by decide), if_neg finite, zero, bare, Bool.not_true,
    Bool.or_false, Bool.and_false, if_neg (by decide), NumberLayout.unsigned, if_pos zero]
  rfl

/-- The text of a number is read as the number, but for the sign of zero and the payload of a NaN. -/
theorem ofChars_script (x : Binary64) : ofChars (Blank.trim (NumberLayout.script.chars x)) = x.readBack := by
  rw [readBack]
  by_cases nan : x.isNaN = true
  · rw [chars_nan nan, if_pos nan]
    rfl
  · have number := Bool.eq_false_iff.mpr nan
    rw [if_neg nan]
    by_cases zero : x.isZero = true
    · rw [chars_zero zero, if_pos zero]
      rfl
    · have some_x := Bool.eq_false_iff.mpr zero
      rw [if_neg zero, NumberLayout.chars, if_neg nan, NumberLayout.unsigned, if_neg zero, some_x]
      by_cases infinite : x.isInfinite = true
      · obtain ⟨-, -, self⟩ := infinite_cases infinite
        rw [if_pos infinite]
        generalize x.isNegative = negative at self
        subst self
        cases negative with
        | true => rfl
        | false => rfl
      · obtain ⟨s, shows⟩ := NumberLayout.decimal_shows (l := .script) ⟨0, rfl⟩ (x.shortest .up)
        obtain ⟨positive, negative⟩ := ofChars_shows shows (shortest_holds some_x .up) some_x
        have self := ofMagnitude_self number
        rw [if_neg infinite, Bool.not_false, Bool.or_true, Bool.and_true]
        cases sign : x.isNegative with
        | true =>
            rw [sign] at self
            exact negative.trans self
        | false =>
            rw [sign] at self
            exact positive.trans self

end Binary64

namespace NumberLayout

/-- The text that a script prints for a number is read as the number, but for the sign of zero and
the payload of a NaN, so no other numbers share a text. -/
theorem render_reads_back (x y : Binary64) :
    Binary64.ofBytes (Utf8.encode (script.render x)) =
        (if x.isNaN then .nan else if x.isZero then .zero false else x) ∧
      (script.render x = script.render y ↔
        x = y ∨ (x.isZero = true ∧ y.isZero = true) ∨ (x.isNaN = true ∧ y.isNaN = true)) := by
  have back (z : Binary64) : Binary64.ofBytes (Utf8.encode (script.render z)) = z.readBack := by
    rw [Binary64.ofBytes, Utf8.decodeLossy_encode, render, String.toList_ofList, Binary64.ofChars_script]
  refine ⟨back x, fun same => ?_, ?_⟩
  · apply Binary64.of_readBack_eq
    rw [← back x, ← back y, same]
  · rintro (rfl | ⟨left, right⟩ | ⟨left, right⟩)
    · rfl
    · rw [render, render, Binary64.chars_zero left, Binary64.chars_zero right]
    · rw [render, render, Binary64.chars_nan left, Binary64.chars_nan right]

example : script.render ⟨1⟩ = "5e-324" := by decide +kernel

end NumberLayout

end GuestHost
