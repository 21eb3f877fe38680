import GuestHost.Proofs.Number.Nearest
import GuestHost.Proofs.Number.RoundTrip
import GuestHost.Proofs.Utf8.Replacements
import Mathlib.Data.List.Forall2

/-! The texts that denote numbers. Reading takes exactly the texts of a grammar, and a decimal for
the number that its value is rounded to; all else, and whatever is not well-formed text, is not a
number. -/

namespace GuestHost

/-! ## The grammar -/

namespace Literal

/-- `[+-]?` -/
inductive Sign : Bool → List Char → Prop
  | none : Sign false []
  | plus : Sign false ['+']
  | minus : Sign true ['-']

/-- `D+` -/
structure Digits (cs : List Char) : Prop where
  some_cs : cs ≠ []
  digital : Digital cs

/-- `[+-]?D+` and the integer written. -/
inductive Integer : ℤ → List Char → Prop
  | mk {negative : Bool} {sign digits : List Char} (signed : Sign negative sign) (digital : Digits digits) :
      Integer (if negative then -(digitsValue digits : ℤ) else digitsValue digits) (sign ++ digits)

/-- `D+(.D*)?|.D+` and what it denotes. -/
inductive Significand : ℚ → List Char → Prop
  | whole {digits : List Char} (digital : Digits digits) : Significand (digitsValue digits) digits
  | pointed {digits fraction : List Char} (digital : Digits digits) (rest : Digital fraction) :
      Significand (digitsValue digits + digitsValue fraction / 10 ^ fraction.length) (digits ++ '.' :: fraction)
  | fraction {fraction : List Char} (digital : Digits fraction) :
      Significand (digitsValue fraction / 10 ^ fraction.length) ('.' :: fraction)

/-- `([eE][+-]?D+)?` -/
inductive Exponent : ℤ → List Char → Prop
  | none : Exponent 0 []
  | mark {c : Char} {e : ℤ} {cs : List Char} (mark : c = 'e' ∨ c = 'E') (integer : Integer e cs) :
      Exponent e (c :: cs)

/-- `[+-]?(D+(.D*)?|.D+)([eE][+-]?D+)?` and what it denotes behind its sign. -/
inductive Decimal (negative : Bool) : ℚ → List Char → Prop
  | mk {v : ℚ} {e : ℤ} {sign body mark : List Char} (signed : Sign negative sign)
      (significand : Significand v body) (exponent : Exponent e mark) :
      Decimal negative (v * 10 ^ e) (sign ++ (body ++ mark))

/-- `[+-]?Infinity` -/
inductive Infinity (negative : Bool) : List Char → Prop
  | mk {sign : List Char} (signed : Sign negative sign) : Infinity negative (sign ++ "Infinity".toList)

/-- What comes before digits of one, three or four bits. -/
inductive Mark : ℕ → List Char → Prop
  | binary {c : Char} (mark : c = 'b' ∨ c = 'B') : Mark 1 ['0', c]
  | octal {c : Char} (mark : c = 'o' ∨ c = 'O') : Mark 3 ['0', c]
  | hexadecimal {c : Char} (mark : c = 'x' ∨ c = 'X') : Mark 4 ['0', c]

/-- A character is a digit in a radix, letters in either case. -/
def IsDigit (radix : ℕ) (c : Char) (d : ℕ) : Prop :=
  d < radix ∧ (c = d.digitChar ∨ c = d.digitChar.toUpper)

/-- One or more digits behind the mark of their radix. -/
inductive Radix (bits : ℕ) : List ℕ → List Char → Prop
  | mk {mark cs : List Char} {ds : List ℕ} (marked : Mark bits mark) (some_ds : ds ≠ [])
      (digits : List.Forall₂ (IsDigit (2 ^ bits)) cs ds) : Radix bits ds (mark ++ cs)

/-- A text denotes a number. -/
def Denotes (cs : List Char) : Prop :=
  cs = [] ∨ (∃ bits ds, Radix bits ds cs) ∨ (∃ negative, Infinity negative cs) ∨
    ∃ negative v, Decimal negative v cs

/-! ## Integers and exponents -/

variable {negative : Bool} {cs sign rest : List Char} {e n : ℤ} {v : ℚ} {bits radix d : ℕ}

/-- A sign is split off where none follows it. -/
theorem Sign.splitSign_append (signed : Sign negative sign) (unsigned : splitSign rest = (false, rest)) :
    splitSign (sign ++ rest) = (negative, rest) := by
  cases signed with
  | none => exact unsigned
  | plus => rfl
  | minus => rfl

theorem exists_sign (cs : List Char) : ∃ sign, Sign (splitSign cs).1 sign ∧ cs = sign ++ (splitSign cs).2 := by
  unfold splitSign
  split
  · exact ⟨['-'], .minus, rfl⟩
  · exact ⟨['+'], .plus, rfl⟩
  · exact ⟨[], .none, rfl⟩

theorem splitSign_of_ne {c : Char} (minus : c ≠ '-') (plus : c ≠ '+') :
    splitSign (c :: rest) = (false, c :: rest) := by
  unfold splitSign
  split
  · next same =>
      cases same
      exact absurd rfl minus
  · next same =>
      cases same
      exact absurd rfl plus
  · rfl

theorem Digits.exists_cons (digits : Digits cs) : ∃ c rest, cs = c :: rest ∧ c.isDigit = true := by
  obtain ⟨c, rest, rfl⟩ := List.exists_cons_of_ne_nil digits.some_cs
  exact ⟨c, rest, rfl, digits.digital c List.mem_cons_self⟩

theorem Digits.splitSign_append (digits : Digits cs) : splitSign (cs ++ rest) = (false, cs ++ rest) := by
  obtain ⟨c, tail, rfl, digit⟩ := digits.exists_cons
  refine splitSign_of_ne ?_ ?_
  · rintro rfl
    cases digit
  · rintro rfl
    cases digit

theorem integer?_eq_some_iff : integer? cs = some n ↔ Integer n cs := by
  constructor
  · intro read
    obtain ⟨sign, signed, split⟩ := exists_sign cs
    rw [integer?] at read
    dsimp only at read
    split at read
    · cases read
    · next digital =>
        rw [Bool.or_eq_true, not_or, List.isEmpty_iff, Bool.not_eq_true, Bool.not_eq_false', List.all_eq_true]
          at digital
        cases read
        rw [split]
        have integer := Integer.mk signed ⟨digital.1, digital.2⟩
        rwa [← split] at integer ⊢
  · rintro ⟨signed, digits⟩
    have unsigned := @Digits.splitSign_append _ [] digits
    rw [List.append_nil] at unsigned
    have split := signed.splitSign_append unsigned
    have all := List.all_eq_true.mpr digits.digital
    have some_digits := List.isEmpty_eq_false_iff.mpr digits.some_cs
    rw [integer?, split]
    dsimp only
    rw [all, some_digits]
    rfl

theorem exponent?_eq_some_iff : Numeral.exponent? cs = some e ↔ Exponent e cs := by
  constructor
  · intro read
    cases cs with
    | nil =>
        cases read
        exact .none
    | cons c cs =>
        rw [Numeral.exponent?] at read
        split at read
        · next mark => exact .mark mark (integer?_eq_some_iff.mp read)
        · cases read
  · intro exponent
    cases exponent with
    | none => rfl
    | mark mark integer =>
        rw [Numeral.exponent?, if_pos mark]
        exact integer?_eq_some_iff.mpr integer

/-- Neither a digit nor a point starts an exponent. -/
theorem Exponent.ends (exponent : Exponent e cs) : cs.takeWhile Char.isDigit = [] ∧ ∀ rest, cs ≠ '.' :: rest := by
  cases exponent with
  | none => exact ⟨rfl, fun _ same => by cases same⟩
  | mark mark =>
      rcases mark with rfl | rfl
      · exact ⟨rfl, fun _ same => by cases same⟩
      · exact ⟨rfl, fun _ same => by cases same⟩

/-! ## Decimals -/

variable {digits fraction mark : List Char}

theorem digitsValue_append (cs rest : List Char) :
    digitsValue (cs ++ rest) = digitsValue cs * 10 ^ rest.length + digitsValue rest := by
  rw [digitsValue_eq, digitsValue_eq, digitsValue_eq, Nat.ofDigitChars_append, Nat.ofDigitChars_eq_ofDigitChars_zero,
    Nat.mul_comm]

/-- A numeral's digits behind the point count for the exponent. -/
theorem value_digits (negative : Bool) (digits fraction : List Char) (e : ℤ) :
    (Numeral.mk negative (digitsValue (digits ++ fraction)) (e - fraction.length)).value =
      (digitsValue digits + digitsValue fraction / 10 ^ fraction.length) * 10 ^ e := by
  rw [Numeral.value, digitsValue_append, zpow_sub₀ (by norm_num), zpow_natCast]
  push_cast
  field_simp

theorem ofChars?_whole (split : splitSign cs = (negative, digits ++ mark)) (digital : Digits digits)
    (exponent : Exponent e mark) :
    Numeral.ofChars? cs = some ⟨negative, digitsValue (digits ++ []), e - ([] : List Char).length⟩ := by
  obtain ⟨ended, pointless⟩ := exponent.ends
  obtain ⟨whole, tail⟩ := digital.digital.span ended
  have some_digits := List.isEmpty_eq_false_iff.mpr digital.some_cs
  rw [Numeral.ofChars?, split]
  dsimp only
  rw [whole, tail]
  split
  · exact absurd rfl (pointless _)
  · dsimp only
    rw [some_digits, exponent?_eq_some_iff.mpr exponent]
    rfl

theorem ofChars?_pointed (split : splitSign cs = (negative, digits ++ '.' :: (fraction ++ mark)))
    (digital : Digital digits) (rest : Digital fraction) (some_digit : digits ≠ [] ∨ fraction ≠ [])
    (exponent : Exponent e mark) :
    Numeral.ofChars? cs = some ⟨negative, digitsValue (digits ++ fraction), e - fraction.length⟩ := by
  have ended : ('.' :: (fraction ++ mark)).takeWhile Char.isDigit = [] := rfl
  obtain ⟨whole, afterWhole⟩ := digital.span ended
  obtain ⟨part, tail⟩ := rest.span exponent.ends.1
  have some_digit : (digits.isEmpty && fraction.isEmpty) = false := by simpa [← not_and_or] using some_digit
  rw [Numeral.ofChars?, split]
  dsimp only
  rw [whole, afterWhole]
  simp only [part, tail, some_digit, exponent?_eq_some_iff.mpr exponent]
  rfl

/-- A decimal is read as what it denotes. -/
theorem Decimal.read (decimal : Decimal negative v cs) :
    ∃ n, Numeral.ofChars? cs = some n ∧ n.negative = negative ∧ n.value = v := by
  obtain ⟨signed, significand, exponent⟩ := decimal
  cases significand with
  | whole digital =>
      refine ⟨_, ofChars?_whole (signed.splitSign_append digital.splitSign_append) digital exponent, rfl, ?_⟩
      rw [value_digits]
      simp [digitsValue]
  | pointed digital rest =>
      rw [List.append_assoc, List.cons_append]
      refine ⟨_, ofChars?_pointed (signed.splitSign_append digital.splitSign_append) digital.digital rest
        (.inl digital.some_cs) exponent, rfl, ?_⟩
      rw [value_digits]
  | fraction digital =>
      refine ⟨_, ofChars?_pointed ?_ .nil digital.digital (.inr digital.some_cs) exponent, rfl, ?_⟩
      · exact signed.splitSign_append (splitSign_of_ne (by decide) (by decide))
      · rw [value_digits]
        simp [digitsValue]

/-- What is read is a decimal. -/
theorem decimal_of_read {n : Numeral} (read : Numeral.ofChars? cs = some n) : Decimal n.negative n.value cs := by
  obtain ⟨sign, signed, split⟩ := exists_sign cs
  rcases parts : splitSign cs with ⟨negative, body⟩
  rw [parts] at signed split
  rw [Numeral.ofChars?, parts] at read
  dsimp only at read signed split
  have all := List.takeWhile_append_dropWhile (p := Char.isDigit) (l := body)
  have digital : Digital (body.takeWhile Char.isDigit) := fun _ listed => List.mem_takeWhile_imp listed
  generalize body.takeWhile Char.isDigit = digits at *
  generalize body.dropWhile Char.isDigit = after at *
  rw [split, ← all]
  split at read
  · next rest =>
      have behind := List.takeWhile_append_dropWhile (p := Char.isDigit) (l := rest)
      have fractional : Digital (rest.takeWhile Char.isDigit) := fun _ listed => List.mem_takeWhile_imp listed
      dsimp only at read
      generalize rest.takeWhile Char.isDigit = fraction at *
      split at read
      · cases read
      · next some_digit =>
          obtain ⟨e, exponent, rfl⟩ := Option.map_eq_some_iff.mp read
          have exponent := exponent?_eq_some_iff.mp exponent
          rw [Bool.and_eq_true, List.isEmpty_iff, List.isEmpty_iff] at some_digit
          rw [value_digits, ← behind, ← List.cons_append, ← List.append_assoc digits]
          refine .mk signed ?_ exponent
          by_cases none : digits = []
          · have some_fraction : fraction ≠ [] := fun empty => some_digit ⟨none, empty⟩
            have significand := Significand.fraction ⟨some_fraction, fractional⟩
            rw [none]
            simpa [digitsValue] using significand
          · exact .pointed ⟨none, digital⟩ fractional
  · dsimp only at read
    split at read
    · cases read
    · next some_digit =>
        obtain ⟨e, exponent, rfl⟩ := Option.map_eq_some_iff.mp read
        have exponent := exponent?_eq_some_iff.mp exponent
        rw [Bool.and_eq_true, List.isEmpty_iff, List.isEmpty_iff] at some_digit
        have some_digits : digits ≠ [] := fun empty => some_digit ⟨empty, rfl⟩
        rw [value_digits]
        refine .mk signed ?_ exponent
        have significand := Significand.whole ⟨some_digits, digital⟩
        simpa [digitsValue] using significand

/-! ## Digits of a radix -/

theorem le_iff_toNat_le {c d : Char} : c ≤ d ↔ c.toNat ≤ d.toNat := UInt32.le_iff_toNat_le

theorem digitChar_eq : (∀ d < 10, Char.ofNat (d + 48) = d.digitChar) ∧
    ∀ d < 6, Char.ofNat (d + 97) = (d + 10).digitChar ∧ Char.ofNat (d + 65) = (d + 10).digitChar.toUpper := by
  decide

theorem digitValue?_digitChar : ∀ d < 16, ∀ radix ≤ 16, d < radix →
    digitValue? radix d.digitChar = some d ∧ digitValue? radix d.digitChar.toUpper = some d := by
  decide +kernel

theorem digitValue?_eq_some_iff {c : Char} (small : radix ≤ 16) :
    digitValue? radix c = some d ↔ IsDigit radix c d := by
  constructor
  · intro read
    rw [digitValue?] at read
    obtain ⟨read, below⟩ := Option.filter_eq_some_iff.mp read
    refine ⟨of_decide_eq_true below, ?_⟩
    rw [← Char.ofNat_toNat c]
    simp only [le_iff_toNat_le, Char.reduceToNat] at read
    split at read
    · cases read
      refine .inl ?_
      rw [← digitChar_eq.1 _ (by omega), Nat.sub_add_cancel (by omega)]
    · split at read
      · cases read
        refine .inl ?_
        rw [← (digitChar_eq.2 _ (by omega)).1, Nat.sub_add_cancel (by omega)]
      · split at read
        · cases read
          refine .inr ?_
          rw [← (digitChar_eq.2 _ (by omega)).2, Nat.sub_add_cancel (by omega)]
        · cases read
  · rintro ⟨below, rfl | rfl⟩
    · exact (digitValue?_digitChar d (by omega) radix small below).1
    · exact (digitValue?_digitChar d (by omega) radix small below).2

variable {ds : List ℕ} {x : Binary64}

/-- One more digit of a text of digits, if all that came before were digits. -/
def appendChar (radix : ℕ) (read : Option Binary64) (c : Char) : Option Binary64 :=
  match read, digitValue? radix c with
  | some x, some d => some (x.appendDigit radix d)
  | _, _ => none

theorem appendChar_digit {c : Char} (digit : digitValue? radix c = some d) (x : Binary64) :
    appendChar radix (some x) c = some (x.appendDigit radix d) := by
  unfold appendChar
  rw [digit]

theorem appendChar_other {c : Char} (other : digitValue? radix c = none) (x : Binary64) :
    appendChar radix (some x) c = none := by
  unfold appendChar
  rw [other]

theorem ofRadix_eq (some_cs : cs ≠ []) :
    Binary64.ofRadix radix cs = (cs.foldl (appendChar radix) (some (.zero false))).getD .nan := by
  rw [Binary64.ofRadix, List.isEmpty_eq_false_iff.mpr some_cs]
  rfl

theorem foldl_digits (small : radix ≤ 16) (digits : List.Forall₂ (IsDigit radix) cs ds) (x : Binary64) :
    cs.foldl (appendChar radix) (some x) = some (ds.foldl (Binary64.appendDigit radix) x) := by
  induction digits generalizing x with
  | nil => rfl
  | cons digit _ ih =>
      rw [List.foldl_cons, List.foldl_cons, appendChar_digit ((digitValue?_eq_some_iff small).mpr digit), ih]

theorem foldl_none (cs : List Char) : cs.foldl (appendChar radix) none = none := by
  induction cs with
  | nil => rfl
  | cons c cs ih => exact ih

theorem exists_digits (small : radix ≤ 16) {y : Binary64} (read : cs.foldl (appendChar radix) (some x) = some y) :
    ∃ ds, List.Forall₂ (IsDigit radix) cs ds := by
  induction cs generalizing x with
  | nil => exact ⟨[], .nil⟩
  | cons c cs ih =>
      rw [List.foldl_cons] at read
      cases digit : digitValue? radix c with
      | none =>
          rw [appendChar_other digit, foldl_none] at read
          cases read
      | some d =>
          rw [appendChar_digit digit] at read
          obtain ⟨ds, digits⟩ := ih read
          exact ⟨d :: ds, .cons ((digitValue?_eq_some_iff small).mp digit) digits⟩

end Literal

namespace Binary64

open Literal

variable {x : Binary64} {radix : ℕ} {v : ℚ} {cs : List Char} {negative : Bool}

/-- What is rounded to is a number. -/
theorem Rounds.number (rounds : Rounds v x) : x.isNaN = false := by
  rcases rounds with ⟨finite, -, -, -⟩ | ⟨infinite, -, -⟩
  · exact number_of_finite finite
  · exact number_of_infinite infinite

theorem appendDigit_number (number : x.isNaN = false) (d : ℕ) : (x.appendDigit radix d).isNaN = false := by
  rw [appendDigit]
  split
  · exact number
  · exact (rounds_ofRatio false _ Nat.one_pos).number

theorem foldl_number (number : x.isNaN = false) (ds : List ℕ) :
    (ds.foldl (appendDigit radix) x).isNaN = false := by
  induction ds generalizing x with
  | nil => exact number
  | cons d ds ih => exact ih (appendDigit_number number d)

theorem ofRadix_number_iff (small : radix ≤ 16) :
    (ofRadix radix cs).isNaN = false ↔ ∃ ds, ds ≠ [] ∧ List.Forall₂ (IsDigit radix) cs ds := by
  by_cases none : cs = []
  · subst none
    refine iff_of_false (show ¬ nan.isNaN = false by decide) ?_
    rintro ⟨ds, some_ds, digits⟩
    cases digits
    exact some_ds rfl
  · rw [ofRadix_eq none]
    constructor
    · intro number
      cases read : cs.foldl (appendChar radix) (some (zero false)) with
      | none =>
          rw [read] at number
          exact absurd number (by decide)
      | some y =>
          obtain ⟨ds, digits⟩ := exists_digits small read
          refine ⟨ds, ?_, digits⟩
          rintro rfl
          cases digits
          exact none rfl
    · rintro ⟨ds, -, digits⟩
      rw [foldl_digits small digits]
      exact foldl_number (by decide) ds

/-! ## Texts -/

theorem ofChars_radix {bits : ℕ} {mark : List Char} (marked : Mark bits mark) (cs : List Char) :
    ofChars (mark ++ cs) = ofRadix (2 ^ bits) cs := by
  rcases marked with ⟨rfl | rfl⟩ | ⟨rfl | rfl⟩ | ⟨rfl | rfl⟩ <;> rfl

theorem ofChars_infinite (infinite : Infinity negative cs) : ofChars cs = infinity negative := by
  obtain ⟨signed⟩ := infinite
  cases signed with
  | none => rfl
  | plus => rfl
  | minus => rfl

/-- What is a decimal numeral has no mark, and is not the word for an infinity. -/
theorem ofChars_read {n : Numeral} (read : Numeral.ofChars? cs = some n) : ofChars cs = n.toBinary64 := by
  have other : (splitSign cs).2 ≠ "Infinity".toList := by
    intro word
    rcases parts : splitSign cs with ⟨negative, body⟩
    rw [parts] at word
    subst word
    rw [Numeral.ofChars?, parts] at read
    cases read
  unfold ofChars
  split
  · cases read
  · cases read
  · cases read
  · cases read
  · cases read
  · cases read
  · cases read
  · dsimp only
    rw [if_neg other, read]
    rfl

/-- Any other text is not a number. -/
theorem ofChars_cases (cs : List Char) : cs = [] ∨ (∃ bits mark rest, Mark bits mark ∧ cs = mark ++ rest) ∨
    (∃ negative, Infinity negative cs) ∨ (∃ n, Numeral.ofChars? cs = some n) ∨ ofChars cs = nan := by
  unfold ofChars
  split
  · exact .inl rfl
  · exact .inr (.inl ⟨4, _, _, .hexadecimal (.inl rfl), rfl⟩)
  · exact .inr (.inl ⟨4, _, _, .hexadecimal (.inr rfl), rfl⟩)
  · exact .inr (.inl ⟨3, _, _, .octal (.inl rfl), rfl⟩)
  · exact .inr (.inl ⟨3, _, _, .octal (.inr rfl), rfl⟩)
  · exact .inr (.inl ⟨1, _, _, .binary (.inl rfl), rfl⟩)
  · exact .inr (.inl ⟨1, _, _, .binary (.inr rfl), rfl⟩)
  · refine .inr (.inr ?_)
    obtain ⟨sign, signed, split⟩ := exists_sign cs
    by_cases word : (splitSign cs).2 = "Infinity".toList
    · have infinite := Infinity.mk signed
      rw [← word, ← split] at infinite
      exact .inl ⟨_, infinite⟩
    · dsimp only
      rw [if_neg word]
      cases Numeral.ofChars? cs with
      | some n => exact .inr (.inl ⟨n, rfl⟩)
      | none => exact .inr (.inr rfl)

theorem small_of_mark {bits : ℕ} {mark : List Char} (marked : Mark bits mark) : 2 ^ bits ≤ 16 := by
  cases marked with
  | binary => decide
  | octal => decide
  | hexadecimal => decide

/-- A radix text is read digit after digit. -/
theorem ofChars_digits {bits : ℕ} {ds : List ℕ} (text : Radix bits ds cs) :
    ofChars cs = ds.foldl (appendDigit (2 ^ bits)) (zero false) := by
  obtain ⟨marked, some_ds, digits⟩ := text
  have some_cs : ∀ {rest}, List.Forall₂ (IsDigit (2 ^ bits)) rest ds → rest ≠ [] := by
    rintro rest digits rfl
    cases digits
    exact some_ds rfl
  rw [ofChars_radix marked, ofRadix_eq (some_cs digits), foldl_digits (small_of_mark marked) digits]
  rfl

end Binary64

end GuestHost
