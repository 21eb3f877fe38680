import GuestHost.Proofs.Number.Grammar

/-! Which texts are numbers, and which numbers they are. -/

namespace GuestHost

/-! ## Decimals -/

namespace Numeral

open Binary64

variable {n : Numeral} {v : ℚ}

/-- What lies far below the least number is rounded to zero. -/
theorem rounds_small (nonneg : 0 ≤ v) (small : v < 10 ^ (-331 : ℤ)) (negative : Bool) :
    Rounds (signed negative v) (.zero negative) := by
  have least : (0 : ℚ) < 2 ^ (-1074 : ℤ) := zpow_pos (by norm_num) _
  have coarser : (10 : ℚ) ^ (-331 : ℤ) ≤ 10 ^ (-324 : ℤ) := zpow_le_zpow_right₀ (by norm_num) (by norm_num)
  have half : v / 2 ^ (-1074 : ℤ) < 2⁻¹ := (div_lt_iff₀ least).mpr (by linarith [ten_pow_lt_half])
  have units : 0 ≤ v / 2 ^ (-1074 : ℤ) := div_nonneg nonneg least.le
  have near : Near 0 (v / 2 ^ (-1074 : ℤ)) := by
    generalize v / 2 ^ (-1074 : ℤ) = w at half units
    refine ⟨?_, ?_, fun odd => absurd odd (by decide)⟩ <;> push_cast <;> linarith
  exact rounds_of_near le_rfl (.inl rfl) (half.trans (by norm_num)) near negative nonneg

/-- What lies far above the greatest number is rounded to an infinity. -/
theorem rounds_large (large : 10 ^ (309 : ℤ) ≤ v) (negative : Bool) :
    Rounds (signed negative v) (.infinity negative) := by
  have beyond : overflow ≤ v := by
    have power : (0 : ℚ) < 2 ^ (971 : ℤ) := zpow_pos (by norm_num) _
    have finer : (2 : ℚ) ^ (971 : ℤ) ≤ 2 ^ (972 : ℤ) := zpow_le_zpow_right₀ (by norm_num) (by norm_num)
    calc overflow ≤ 2 ^ 53 * 2 ^ (971 : ℤ) := mul_le_mul_of_nonneg_right (by norm_num) power.le
      _ ≤ 2 ^ 53 * 2 ^ (972 : ℤ) := by gcongr
      _ ≤ v := last_lt_ten_pow.le.trans large
  have positive := overflow_pos.trans_le beyond
  refine .overflows (by cases negative <;> decide) (by rwa [abs_signed, abs_of_pos positive]) ?_
  rw [infinity, isNegative_ofMagnitude]
  cases negative with
  | true => exact (decide_eq_true (neg_lt_zero.mpr positive)).symm
  | false => exact (decide_eq_false positive.le.not_gt).symm

theorem value_nonneg (n : Numeral) : 0 ≤ n.value := mul_nonneg (Nat.cast_nonneg _) (zpow_nonneg (by norm_num) _)

/-- A decimal is rounded correctly, also where its digits are not looked at. -/
theorem rounds_toBinary64 (n : Numeral) : Rounds (signed n.negative n.value) n.toBinary64 := by
  rw [toBinary64]
  split
  · next zero =>
      refine rounds_small n.value_nonneg ?_ n.negative
      rw [value, zero, Nat.cast_zero, zero_mul]
      exact zpow_pos (by norm_num) _
  · next some_digits =>
      obtain ⟨low, high⟩ := value_range some_digits
      change Rounds _ (if 310 < n.size then _ else if n.size < -330 then _ else _)
      split
      · exact rounds_large ((zpow_le_zpow_right₀ (by norm_num) (by omega)).trans low) n.negative
      · split
        · exact rounds_small n.value_nonneg (high.trans_le (zpow_le_zpow_right₀ (by norm_num) (by omega))) n.negative
        · rw [n.value_eq_div]
          exact rounds_ofRatio n.negative _ (Nat.pow_pos (by decide))

theorem isNegative_toBinary64 (n : Numeral) : n.toBinary64.isNegative = n.negative := by
  rw [toBinary64]
  split
  · exact isNegative_ofMagnitude _ _
  · dsimp only
    split
    · exact isNegative_ofMagnitude _ _
    · split
      · exact isNegative_ofMagnitude _ _
      · exact isNegative_ofRatio _ _ _

end Numeral

/-! ## Blanks -/

namespace Blank

theorem exists_blanks (cs : List Char) : ∃ before after, cs = before ++ (trim cs ++ after) ∧
    ∀ c ∈ before ++ after, isBlank c = true := by
  have front := List.takeWhile_append_dropWhile (p := isBlank) (l := cs)
  have back := List.takeWhile_append_dropWhile (p := isBlank) (l := (cs.dropWhile isBlank).reverse)
  refine ⟨cs.takeWhile isBlank, ((cs.dropWhile isBlank).reverse.takeWhile isBlank).reverse, ?_, ?_⟩
  · rw [trim, ← List.reverse_append, back, List.reverse_reverse, front]
  · intro c listed
    rcases List.mem_append.mp listed with before | after
    · exact List.mem_takeWhile_imp before
    · exact List.mem_takeWhile_imp (List.mem_reverse.mp after)

theorem dropWhile_solid {cs : List Char} (rest : List Char) (some_cs : cs ≠ [])
    (solid : ∀ c ∈ cs, isBlank c = false) : (cs ++ rest).dropWhile isBlank = cs ++ rest := by
  cases cs with
  | nil => exact absurd rfl some_cs
  | cons c cs => exact List.dropWhile_cons_of_neg (by simp [solid c List.mem_cons_self])

/-- Blanks are all that is trimmed from around a text without blanks. -/
theorem trim_append {before cs after : List Char} (blanks : ∀ c ∈ before ++ after, isBlank c = true)
    (solid : ∀ c ∈ cs, isBlank c = false) : trim (before ++ (cs ++ after)) = cs := by
  have front : ∀ c ∈ before, isBlank c = true := fun c listed => blanks c (List.mem_append_left _ listed)
  have back : ∀ c ∈ after, isBlank c = true := fun c listed => blanks c (List.mem_append_right _ listed)
  rw [trim, List.dropWhile_append_of_pos front]
  by_cases none : cs = []
  · rw [none, List.nil_append, List.dropWhile_eq_nil_iff.mpr back]
    rfl
  · have reversed : ∀ c ∈ after.reverse, isBlank c = true := fun c listed => back c (List.mem_reverse.mp listed)
    have last := dropWhile_solid [] (List.reverse_ne_nil_iff.mpr none)
      fun c listed => solid c (List.mem_reverse.mp listed)
    rw [List.append_nil] at last
    rw [dropWhile_solid after none solid, List.reverse_append, List.dropWhile_append_of_pos reversed, last,
      List.reverse_reverse]

end Blank

/-! ## Characters -/

/-- Every one of the characters is one of the visible ones of seven bits. -/
def Visible (cs : List Char) : Prop := ∀ c ∈ cs, 0x20 < c.toNat ∧ c.toNat < 0x7F

namespace Visible

variable {cs rest : List Char}

theorem append (left : Visible cs) (right : Visible rest) : Visible (cs ++ rest) := by
  intro c listed
  rcases List.mem_append.mp listed with here | there
  · exact left c here
  · exact right c there

theorem cons {c : Char} (first : 0x20 < c.toNat ∧ c.toNat < 0x7F) (rest : Visible cs) : Visible (c :: cs) := by
  intro c listed
  rcases List.mem_cons.mp listed with rfl | there
  · exact first
  · exact rest c there

theorem nil : Visible [] := fun _ listed => absurd listed List.not_mem_nil

theorem of_digital (digital : Digital cs) : Visible cs := by
  intro c listed
  have range : 48 ≤ c.toNat ∧ c.toNat ≤ 57 := Char.isDigit_iff_toNat.mp (digital c listed)
  omega

/-- None of them is a blank. -/
theorem solid (visible : Visible cs) : ∀ c ∈ cs, Blank.isBlank c = false := by
  intro c listed
  have range := visible c listed
  simp only [Blank.isBlank, Bool.or_eq_false_iff, Bool.and_eq_false_iff, decide_eq_false_iff_not, beq_eq_false_iff_ne]
  omega

/-- None of them stands for something replaced. -/
theorem nothing_replaced (visible : Visible cs) : Utf8.replacement ∉ cs :=
  fun listed => absurd (visible _ listed).2 (by decide)

end Visible

namespace Literal

variable {cs : List Char} {negative : Bool}

theorem Sign.visible (sign : Sign negative cs) : Visible cs := by
  cases sign with
  | none => exact .nil
  | plus => exact .cons (by decide) .nil
  | minus => exact .cons (by decide) .nil

theorem Integer.visible {n : ℤ} (integer : Integer n cs) : Visible cs := by
  obtain ⟨signed, digits⟩ := integer
  exact signed.visible.append (.of_digital digits.digital)

theorem Significand.visible {v : ℚ} (significand : Significand v cs) : Visible cs := by
  cases significand with
  | whole digits => exact .of_digital digits.digital
  | pointed digits rest => exact (Visible.of_digital digits.digital).append (.cons (by decide) (.of_digital rest))
  | fraction digits => exact .cons (by decide) (.of_digital digits.digital)

theorem Exponent.visible {e : ℤ} (exponent : Exponent e cs) : Visible cs := by
  cases exponent with
  | none => exact .nil
  | mark mark integer => exact .cons (by rcases mark with rfl | rfl <;> decide) integer.visible

theorem visible_digit {radix d : ℕ} {c : Char} (small : radix ≤ 16) (digit : IsDigit radix c d) :
    0x20 < c.toNat ∧ c.toNat < 0x7F := by
  have all : ∀ d < 16, (0x20 < d.digitChar.toNat ∧ d.digitChar.toNat < 0x7F) ∧
      0x20 < d.digitChar.toUpper.toNat ∧ d.digitChar.toUpper.toNat < 0x7F := by decide
  obtain ⟨below, rfl | rfl⟩ := digit
  · exact (all d (by omega)).1
  · exact (all d (by omega)).2

theorem Mark.visible {bits : ℕ} (marked : Mark bits cs) : Visible cs := by
  rcases marked with ⟨rfl | rfl⟩ | ⟨rfl | rfl⟩ | ⟨rfl | rfl⟩ <;> exact .cons (by decide) (.cons (by decide) .nil)

theorem Radix.visible {bits : ℕ} {ds : List ℕ} (text : Radix bits ds cs) : Visible cs := by
  obtain ⟨marked, -, digits⟩ := text
  refine marked.visible.append fun c listed => ?_
  obtain ⟨d, digit⟩ : ∃ d, IsDigit (2 ^ bits) c d := by
    clear marked
    induction digits with
    | nil => exact absurd listed List.not_mem_nil
    | cons digit _ ih =>
        rcases List.mem_cons.mp listed with rfl | there
        · exact ⟨_, digit⟩
        · exact ih there
  exact visible_digit (Binary64.small_of_mark marked) digit

theorem Infinity.visible (infinity : Infinity negative cs) : Visible cs := by
  obtain ⟨signed⟩ := infinity
  have letters : ("Infinity".toList.all fun c => 0x20 < c.toNat && c.toNat < 0x7F) = true := by decide
  refine signed.visible.append fun c listed => ?_
  have letter := List.all_eq_true.mp letters c listed
  rwa [Bool.and_eq_true, decide_eq_true_eq, decide_eq_true_eq] at letter

theorem Decimal.visible {v : ℚ} (decimal : Decimal negative v cs) : Visible cs := by
  obtain ⟨signed, significand, exponent⟩ := decimal
  exact signed.visible.append (significand.visible.append exponent.visible)

theorem Denotes.visible (denotes : Denotes cs) : Visible cs := by
  rcases denotes with rfl | ⟨bits, ds, text⟩ | ⟨negative, infinity⟩ | ⟨negative, v, decimal⟩
  · exact .nil
  · exact text.visible
  · exact infinity.visible
  · exact decimal.visible

end Literal

namespace Binary64

variable {cs : List Char}

/-- Exactly the texts of the grammar are numbers. -/
theorem ofChars_number_iff : (ofChars cs).isNaN = false ↔ Literal.Denotes cs := by
  constructor
  · intro number
    rcases ofChars_cases cs with empty | ⟨bits, mark, rest, marked, rfl⟩ | infinite | ⟨n, read⟩ | other
    · exact .inl empty
    · rw [ofChars_radix marked, ofRadix_number_iff (small_of_mark marked)] at number
      obtain ⟨ds, some_ds, digits⟩ := number
      exact .inr (.inl ⟨bits, ds, .mk marked some_ds digits⟩)
    · exact .inr (.inr (.inl infinite))
    · exact .inr (.inr (.inr ⟨_, _, Literal.decimal_of_read read⟩))
    · rw [other] at number
      exact absurd number (by decide)
  · rintro (rfl | ⟨bits, ds, text⟩ | ⟨negative, infinite⟩ | ⟨negative, v, decimal⟩)
    · rfl
    · rw [ofChars_digits text]
      exact foldl_number (by decide) ds
    · rw [ofChars_infinite infinite]
      cases negative <;> decide
    · obtain ⟨n, read, -, -⟩ := decimal.read
      rw [ofChars_read read]
      exact n.rounds_toBinary64.number

/-- A byte string is a number exactly if it is blanks around a text of the grammar. Nothing is zero,
the word for an infinity is the infinity of its sign, and a decimal is the number that its value is
rounded to. What is not well-formed text is not a number. -/
theorem ofBytes_recognises (bytes : Array UInt8) :
    let text := Blank.trim (Utf8.decodeLossy bytes).toList
    ((ofBytes bytes).isNaN = false ↔ Literal.Denotes text) ∧
      (text = [] → ofBytes bytes = zero false) ∧
      (∀ negative, Literal.Infinity negative text → ofBytes bytes = infinity negative) ∧
      (∀ negative v, Literal.Decimal negative v text →
        Rounds (signed negative v) (ofBytes bytes) ∧ (ofBytes bytes).isNegative = negative) ∧
      (Utf8.decode? bytes = none → (ofBytes bytes).isNaN = true) := by
  intro text
  have number : (ofBytes bytes).isNaN = false ↔ Literal.Denotes text := ofChars_number_iff
  refine ⟨number, fun empty => ?_, fun negative infinite => ofChars_infinite infinite, fun negative v decimal => ?_,
    fun malformed => ?_⟩
  · rw [ofBytes]
    change ofChars text = _
    rw [empty]
    rfl
  · obtain ⟨n, read, rfl, rfl⟩ := decimal.read
    rw [show ofBytes bytes = n.toBinary64 from ofChars_read read]
    exact ⟨n.rounds_toBinary64, n.isNegative_toBinary64⟩
  · rw [← Bool.not_eq_false, number]
    intro denotes
    -- What is replaced is no blank, so that trimming leaves it.
    obtain ⟨before, after, whole, blanks⟩ := Blank.exists_blanks (Utf8.decodeLossy bytes).toList
    have replaced := Utf8.replacement_mem malformed
    rw [whole, List.mem_append, List.mem_append] at replaced
    have solid : Blank.isBlank Utf8.replacement ≠ true := by decide
    rcases replaced with front | inside | back
    · exact solid (blanks _ (List.mem_append_left _ front))
    · exact denotes.visible.nothing_replaced inside
    · exact solid (blanks _ (List.mem_append_right _ back))

theorem ofBytes_recognises_decimal : Literal.Decimal true 25 "-2.5e1".toList ∧
    Rounds (-25) (ofBytes (Utf8.encode " -2.5e1 ")) ∧ (ofBytes (Utf8.encode " -2.5e1 ")).isNegative = true := by
  have trimmed : Blank.trim (Utf8.decodeLossy (Utf8.encode " -2.5e1 ")).toList = "-2.5e1".toList := by
    rw [Utf8.decodeLossy_encode]
    decide
  have read : Numeral.ofChars? "-2.5e1".toList = some ⟨true, 25, 0⟩ := by decide
  have decimal : Literal.Decimal true 25 "-2.5e1".toList := by
    have of_read := Literal.decimal_of_read read
    rwa [show Numeral.value ⟨true, 25, 0⟩ = 25 by norm_num [Numeral.value]] at of_read
  obtain ⟨-, -, -, rounds, -⟩ := ofBytes_recognises (Utf8.encode " -2.5e1 ")
  rw [trimmed] at rounds
  exact ⟨decimal, rounds true 25 decimal⟩

end Binary64

end GuestHost
