import GuestHost.Number.Reading
import GuestHost.Proofs.Number.Shortest
import Mathlib.Data.List.TakeWhile

/-! Decimal numerals in their parts: which parts a text is read in, and in which parts the layouts
show a decimal. -/

namespace GuestHost

/-! ## Digits -/

theorem digitsValue_eq (cs : List Char) : digitsValue cs = Nat.ofDigitChars 10 cs 0 := by
  rw [digitsValue, Nat.ofDigitChars_eq_foldl]
  simp only [Nat.mul_comm]

theorem digitsValue_toDigits (n : ℕ) : digitsValue (Nat.toDigits 10 n) = n := by
  rw [digitsValue_eq, Nat.ofDigitChars_ten_toDigits]

theorem digitsValue_append_zeros (cs : List Char) (n : ℕ) :
    digitsValue (cs ++ List.replicate n '0') = digitsValue cs * 10 ^ n := by
  rw [digitsValue_eq, digitsValue_eq, Nat.ofDigitChars_append, Nat.ofDigitChars_replicate_zero, Nat.mul_comm]

theorem digitsValue_zeros_append (cs : List Char) (n : ℕ) :
    digitsValue (List.replicate n '0' ++ cs) = digitsValue cs := by
  rw [digitsValue_eq, digitsValue_eq, Nat.ofDigitChars_append, Nat.ofDigitChars_replicate_zero, Nat.mul_zero]

/-- Every one of the characters is a digit. -/
def Digital (cs : List Char) : Prop := ∀ c ∈ cs, c.isDigit = true

namespace Digital

variable {cs rest : List Char} {n : ℕ}

theorem nil : Digital [] := fun _ listed => absurd listed List.not_mem_nil

theorem append (left : Digital cs) (right : Digital rest) : Digital (cs ++ rest) := by
  intro c listed
  rcases List.mem_append.mp listed with here | there
  · exact left c here
  · exact right c there

theorem zeros (n : ℕ) : Digital (List.replicate n '0') := by
  intro c listed
  rw [List.eq_of_mem_replicate listed]
  rfl

theorem toDigits (n : ℕ) : Digital (Nat.toDigits 10 n) :=
  fun _ listed => Nat.isDigit_of_mem_toDigits (by decide) (by decide) listed

theorem take (digits : Digital cs) (n : ℕ) : Digital (cs.take n) :=
  fun c listed => digits c (List.mem_of_mem_take listed)

theorem drop (digits : Digital cs) (n : ℕ) : Digital (cs.drop n) :=
  fun c listed => digits c (List.mem_of_mem_drop listed)

/-- A run of digits ends where no digit follows. -/
theorem span (digits : Digital cs) (ended : rest.takeWhile Char.isDigit = []) :
    (cs ++ rest).takeWhile Char.isDigit = cs ∧ (cs ++ rest).dropWhile Char.isDigit = rest := by
  rw [List.takeWhile_append_of_pos digits, List.dropWhile_append_of_pos digits, ended, List.append_nil]
  have all := List.takeWhile_append_dropWhile (p := Char.isDigit) (l := rest)
  rw [ended, List.nil_append] at all
  exact ⟨rfl, all⟩

end Digital

/-! ## Parts -/

/-- What a numeral denotes, but for its sign. -/
def Numeral.value (n : Numeral) : ℚ := n.digits * 10 ^ n.exponent

/-- The parts of a numeral without a sign. A whole part comes first; an exponent has its sign. -/
structure Spelling where
  whole : List Char
  fraction : List Char
  exponent : Option ℤ

namespace Spelling

/-- The exponent and its mark. -/
def mark : Option ℤ → List Char
  | none => []
  | some e => 'e' :: (if e < 0 then '-' else '+') :: Nat.toDigits 10 e.natAbs

def text (s : Spelling) : List Char :=
  s.whole ++ ((if s.fraction.isEmpty then [] else '.' :: s.fraction) ++ mark s.exponent)

def numeral (s : Spelling) (negative : Bool) : Numeral :=
  ⟨negative, digitsValue (s.whole ++ s.fraction), s.exponent.getD 0 - s.fraction.length⟩

/-- The digits are digits, and there is one before the point. -/
structure Proper (s : Spelling) : Prop where
  some_whole : s.whole ≠ []
  whole : Digital s.whole
  fraction : Digital s.fraction

/-! ## Reading -/

theorem integer?_digits {cs : List Char} (some_cs : cs ≠ []) (digits : Digital cs) (negative : Bool) :
    integer? ((if negative then '-' else '+') :: cs) =
      some (if negative then -(digitsValue cs : ℤ) else digitsValue cs) := by
  have all : cs.all Char.isDigit = true := List.all_eq_true.mpr digits
  have some_cs : cs.isEmpty = false := by simpa using some_cs
  cases negative with
  | true =>
      change (if cs.isEmpty || !cs.all Char.isDigit then none else _) = _
      rw [all, some_cs]
      rfl
  | false =>
      change (if cs.isEmpty || !cs.all Char.isDigit then none else _) = _
      rw [all, some_cs]
      rfl

theorem exponent?_mark (exponent : Option ℤ) : Numeral.exponent? (mark exponent) = some (exponent.getD 0) := by
  cases exponent with
  | none => rfl
  | some e =>
      have read := integer?_digits Nat.toDigits_ne_nil (Digital.toDigits e.natAbs) (decide (e < 0))
      simp only [digitsValue_toDigits, decide_eq_true_eq] at read
      rw [mark, Numeral.exponent?, if_pos (.inl rfl), read, Option.getD_some]
      congr 1
      omega

theorem mark_ends (exponent : Option ℤ) : (mark exponent).takeWhile Char.isDigit = [] := by
  cases exponent with
  | none => rfl
  | some e => rfl

namespace Proper

variable {s : Spelling} (proper : s.Proper)

include proper

/-- The text starts with a digit. -/
theorem head : ∃ c cs, s.text = c :: cs ∧ c.isDigit = true := by
  cases parts : s.whole with
  | nil => exact absurd parts proper.some_whole
  | cons c cs =>
      refine ⟨c, _, by rw [text, parts, List.cons_append], proper.whole c ?_⟩
      rw [parts]
      exact List.mem_cons_self

theorem splitSign_text : splitSign s.text = (false, s.text) := by
  obtain ⟨c, cs, text, digit⟩ := proper.head
  rw [text]
  unfold splitSign
  split
  · next same =>
      cases same
      cases digit
  · next same =>
      cases same
      cases digit
  · rfl

/-- A numeral is read in its parts. -/
theorem ofChars?_body {cs : List Char} {negative : Bool} (body : splitSign cs = (negative, s.text)) :
    Numeral.ofChars? cs = some (s.numeral negative) := by
  have some_whole : s.whole.isEmpty = false := by simpa using proper.some_whole
  have ended : ((if s.fraction.isEmpty then [] else '.' :: s.fraction) ++
      mark s.exponent).takeWhile Char.isDigit = [] := by
    split
    · exact mark_ends s.exponent
    · rfl
  obtain ⟨whole, afterWhole⟩ := proper.whole.span ended
  obtain ⟨fraction, tail⟩ := proper.fraction.span (mark_ends s.exponent)
  have read := exponent?_mark s.exponent
  rw [Numeral.ofChars?, body]
  dsimp only
  rw [text, whole, afterWhole, some_whole, numeral]
  by_cases point : s.fraction = []
  · rw [point]
    cases exponent : s.exponent with
    | none => rfl
    | some e =>
        rw [exponent] at read
        change Option.map _ (Numeral.exponent? (mark (some e))) = _
        rw [read]
        rfl
  · have some_fraction : s.fraction.isEmpty = false := by simpa using point
    rw [some_fraction]
    change (Numeral.exponent? ((s.fraction ++ mark s.exponent).dropWhile Char.isDigit)).map
      (fun e => (⟨negative, digitsValue (s.whole ++ (s.fraction ++ mark s.exponent).takeWhile Char.isDigit),
        e - ((s.fraction ++ mark s.exponent).takeWhile Char.isDigit).length⟩ : Numeral)) = _
    rw [fraction, tail, read]
    rfl

end Proper

/-! ## Showing -/

/-- What the parts denote. -/
def value (s : Spelling) : ℚ := (s.numeral false).value

theorem value_eq (s : Spelling) :
    s.value = digitsValue (s.whole ++ s.fraction) * 10 ^ (s.exponent.getD 0 - s.fraction.length) := rfl

/-- The parts have a text, and denote a number. -/
structure Shows (s : Spelling) (cs : List Char) (v : ℚ) : Prop where
  proper : s.Proper
  text : s.text = cs
  value : s.value = v

end Spelling

namespace NumberLayout

/-- Nothing stands behind a whole number, or a point and zeros. -/
def Neutral (l : NumberLayout) : Prop :=
  ∃ places : ℕ, l.wholeSuffix = if places = 0 then [] else '.' :: List.replicate places '0'

variable {digits : List Char} (some_digits : digits ≠ []) (digital : Digital digits)

include some_digits digital

/-- Digits with a point between them, or behind all of them. -/
theorem cut_shows {i : ℕ} (some_i : 0 < i) (within : i ≤ digits.length) (exponent : Option ℤ) {cs : List Char}
    {v : ℚ} (text : (Spelling.mk (digits.take i) (digits.drop i) exponent).text = cs)
    (value : digitsValue digits * 10 ^ (exponent.getD 0 + i - digits.length) = v) :
    ∃ s : Spelling, s.Shows cs v := by
  refine ⟨⟨digits.take i, digits.drop i, exponent⟩, ⟨?_, digital.take i, digital.drop i⟩, text, ?_⟩
  · simp [some_digits]
    omega
  · rw [← value, Spelling.value_eq, List.take_append_drop, List.length_drop]
    congr 2
    rw [Nat.cast_sub within, add_sub_assoc, sub_eq_add_neg, neg_sub]

/-- Digits with zeros behind them, before and after the point. -/
theorem padded_shows (zeros places : ℕ) : ∃ s : Spelling,
    s.Shows (digits ++ List.replicate zeros '0' ++ (if places = 0 then [] else '.' :: List.replicate places '0'))
      (digitsValue digits * 10 ^ zeros) := by
  refine ⟨⟨digits ++ List.replicate zeros '0', List.replicate places '0', none⟩,
    ⟨?_, digital.append (.zeros _), .zeros _⟩, ?_, ?_⟩
  · simpa using fun empty => absurd empty some_digits
  · simp [Spelling.text, Spelling.mark]
  · rw [Spelling.value_eq, digitsValue_append_zeros, digitsValue_append_zeros, List.length_replicate,
      Option.getD_none, zero_sub, zpow_neg, zpow_natCast]
    push_cast
    field_simp

/-- Zeros, with the point behind the first of them, and then the digits. -/
theorem leading_shows (zeros : ℕ) : ∃ s : Spelling, s.Shows (['0', '.'] ++ List.replicate zeros '0' ++ digits)
    (digitsValue digits * 10 ^ (-(zeros : ℤ) - digits.length)) := by
  have some_fraction : (List.replicate zeros '0' ++ digits).isEmpty = false := by
    simpa using fun _ => some_digits
  refine ⟨⟨['0'], List.replicate zeros '0' ++ digits, none⟩,
    ⟨List.cons_ne_nil _ _, .zeros 1, (Digital.zeros _).append digital⟩, ?_, ?_⟩
  · rw [Spelling.text, some_fraction]
    exact congrArg _ (List.append_nil _)
  · rw [Spelling.value_eq, List.length_append, List.length_replicate]
    change ((digitsValue (List.replicate 1 '0' ++ _) : ℕ) : ℚ) * _ = _
    rw [digitsValue_zeros_append, digitsValue_zeros_append]
    congr 2
    change 0 - _ = _
    push_cast
    ring

/-- Positional notation: the point stands behind the digits and zeros, between digits, or before zeros
and the digits. -/
theorem positional_shows (n : ℤ) {l : NumberLayout} (neutral : l.Neutral) : ∃ s : Spelling,
    s.Shows (l.positional digits n) (digitsValue digits * 10 ^ (n - digits.length)) := by
  unfold positional
  dsimp only
  by_cases whole : (digits.length : ℤ) ≤ n
  · obtain ⟨zeros, rfl⟩ := Int.le.dest whole
    obtain ⟨places, suffix⟩ := neutral
    rw [if_pos whole, suffix, add_sub_cancel_left, Int.toNat_natCast, zpow_natCast]
    exact padded_shows some_digits digital zeros places
  · rw [if_neg whole]
    by_cases inside : 0 < n
    · obtain ⟨i, rfl⟩ := Int.eq_ofNat_of_zero_le inside.le
      rw [if_pos inside, Int.toNat_natCast]
      refine cut_shows some_digits digital (i := i) (by omega) (by omega) none ?_ (by simp)
      have some_fraction : (digits.drop i).isEmpty = false := by
        rw [List.isEmpty_eq_false_iff]
        exact List.ne_nil_of_length_pos (by rw [List.length_drop]; omega)
      rw [Spelling.text, some_fraction]
      exact congrArg _ (List.append_nil _)
    · obtain ⟨zeros, same⟩ := Int.eq_ofNat_of_zero_le (show 0 ≤ -n by omega)
      have negated : n = -(zeros : ℤ) := by omega
      rw [if_neg inside, same, Int.toNat_natCast, negated]
      exact leading_shows some_digits digital zeros

/-- Scientific notation: the point stands behind the first digit. -/
theorem scientific_shows (n : ℤ) : ∃ s : Spelling,
    s.Shows (scientific digits n) (digitsValue digits * 10 ^ (n - digits.length)) := by
  have some_length := List.length_pos_of_ne_nil some_digits
  refine cut_shows some_digits digital (i := 1) (by decide) some_length (some (n - 1)) ?_ (by simp)
  exact (List.append_assoc _ _ _).symm

omit some_digits digital in
/-- A layout with no more than zeros behind whole numbers shows every decimal. -/
theorem decimal_shows {l : NumberLayout} (neutral : l.Neutral) (d : Decimal) :
    ∃ s : Spelling, s.Shows (l.decimal d) d.value := by
  have value : d.value = digitsValue d.text * 10 ^ (d.exponent + d.text.length - d.text.length) := by
    rw [Decimal.value, Decimal.text, digitsValue_toDigits, add_sub_cancel_right]
  rw [value]
  unfold decimal
  dsimp only
  split
  · exact positional_shows Nat.toDigits_ne_nil (.toDigits d.digits) _ neutral
  · exact scientific_shows Nat.toDigits_ne_nil (.toDigits d.digits) _

end NumberLayout

end GuestHost
