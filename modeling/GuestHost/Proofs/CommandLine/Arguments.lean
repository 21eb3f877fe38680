import GuestHost.CommandLine.Argument
import GuestHost.Proofs.Number.Integers
import GuestHost.Proofs.Number.Layouts

/-! Displayed values as arguments of the command line. The text that displays a value other than a text
stands for the value again, except that a number whose text is an integer of 64 bits is taken for that
integer, which is rounded to the number. -/

namespace GuestHost

namespace Binary64

variable {x y : Binary64} {cs : List Char} {n : ℤ}

/-! ## Numbers -/

theorem map_toLower_listed : numeralChars.map Char.toLower = numeralChars := by decide

/-- No word stands for a number that is written with the characters of numerals. -/
theorem ofArgument?_listed (listed : cs ⊆ numeralChars) :
    ofArgument? cs = (Numeral.ofChars? cs).map Numeral.toBinary64 := by
  have other {word : List Char} (letter : 'n' ∈ word) : (splitSign cs).2.map Char.toLower ≠ word := by
    rintro rfl
    obtain ⟨c, among, lower⟩ := List.mem_map.mp letter
    have inside := List.mem_map_of_mem (f := Char.toLower) (listed (splitSign_subset cs among))
    rw [lower, map_toLower_listed] at inside
    exact absurd inside (by decide)
  unfold ofArgument?
  dsimp only
  rw [if_neg (not_or.mpr ⟨other (by decide), other (by decide)⟩), if_neg (other (by decide))]

theorem exists_plain (finite : x.isFinite = true) : ∃ s : Spelling, NumberLayout.plain.Spells x s :=
  NumberLayout.exists_spelling ⟨0, rfl⟩ rfl finite

/-- What is not a finite number is displayed in a word. -/
theorem plain_infinite (infinite : x.isFinite = false) :
    int64? (NumberLayout.plain.chars x) = none ∧
      ofArgument? (NumberLayout.plain.chars x) = some (if x.isNaN then nan else x) := by
  rcases not_finite_cases infinite with none | limit
  · have text : NumberLayout.plain.chars x = "NaN".toList := if_pos none
    rw [text, none]
    exact ⟨by decide, rfl⟩
  · obtain ⟨number, -, self⟩ := infinite_cases limit
    rw [if_neg (Bool.eq_false_iff.mp number)]
    generalize x.isNegative = negative at self
    subst self
    cases negative with
    | true => exact ⟨by decide, rfl⟩
    | false => exact ⟨by decide, rfl⟩

/-- The displayed text of a number is taken for the number. -/
theorem ofArgument?_plain (x : Binary64) :
    ofArgument? (NumberLayout.plain.chars x) = some (if x.isNaN then nan else x) := by
  cases finite : x.isFinite with
  | false => exact (plain_infinite finite).2
  | true =>
      obtain ⟨s, spells⟩ := exists_plain finite
      rw [ofArgument?_listed spells.listed, spells.read, number_of_finite finite]
      rfl

/-! ## Numbers displayed as integers -/

/-- An integer that displays a number is rounded to the number. -/
theorem rounds_of_plain (integer : Literal.Integer n (NumberLayout.plain.chars x)) (finite : x.isFinite = true) :
    Rounds n x := by
  obtain ⟨s, spells⟩ := exists_plain finite
  have rounds := integer.rounds
  rwa [ofChars_listed spells.ne_nil spells.listed, spells.read] at rounds

theorem rounds_ofInt (n : ℤ) : Rounds n (ofInt n) := by
  have rounds := rounds_ofRatio (decide (n < 0)) n.natAbs Nat.one_pos
  rw [Nat.cast_one, div_one, Nat.cast_natAbs, Int.cast_abs, signed] at rounds
  by_cases negative : n < 0
  · have below : (n : ℚ) < 0 := by exact_mod_cast negative
    rwa [if_pos (decide_eq_true negative), abs_of_neg below, neg_neg] at rounds
  · have above : (0 : ℚ) ≤ n := by exact_mod_cast not_lt.mp negative
    rwa [if_neg (by simpa using negative), abs_of_nonneg above] at rounds

/-- Finite numbers that denote the same are equal as numbers. -/
theorem same_of_value_eq (finite_x : x.isFinite = true) (finite_y : y.isFinite = true) (equal : x.value = y.value) :
    (Value.number x).same (.number y) = true := by
  have number_x := number_of_finite finite_x
  have number_y := number_of_finite finite_y
  have magnitude : x.magnitude = y.magnitude := by
    rw [magnitude_eq_iff, ← x.abs_value, equal, y.abs_value]
  rw [Value.same, number_x, number_y]
  cases zero : x.isZero with
  | true =>
      rw [isZero, magnitude] at zero
      rw [isZero, zero]
      simp
  | false =>
      have zero' : y.isZero = false := by rwa [isZero, ← magnitude]
      have sign : x.isNegative = y.isNegative := by
        rw [Bool.eq_iff_iff, ← value_neg_iff zero, ← value_neg_iff zero', equal]
      have same : x = y := by
        rw [← ofMagnitude_self number_x, ← ofMagnitude_self number_y, sign, magnitude]
      simp [same]

end Binary64

namespace Value

variable {s : String} {n : Int64} {x : Binary64}

/-! ## Arguments -/

theorem ofArgument_integer (read : int64? s.toList = some n) : ofArgument s = integer n := by
  have other : s ≠ "nil" := by
    rintro rfl
    cases read
  rw [ofArgument, if_neg other, read]

theorem ofArgument_number (none : int64? s.toList = none) (read : Binary64.ofArgument? s.toList = some x) :
    ofArgument s = number x := by
  have other : s ≠ "nil" := by
    rintro rfl
    cases read
  rw [ofArgument, if_neg other, none, read]

/-- A displayed value is read back from an argument: nil as nil, an integer as itself, and a number
as itself (but for the payload of a NaN) unless its text is an integer of 64 bits. Such a text is taken
for the integer, which is rounded to the number and so equal to it as numbers are. -/
theorem display_read_back :
    ofArgument nil.display = nil ∧ (∀ n, ofArgument (integer n).display = integer n) ∧
      ∀ x : Binary64,
        (∃ n : Int64, Literal.Integer n.toInt (number x).display.toList ∧
          ofArgument (number x).display = integer n ∧ x.isFinite = true ∧ Binary64.Rounds n.toInt x ∧
          (number (.ofInt n.toInt)).same (number x) = true) ∨
        (¬ ∃ n : Int64, Literal.Integer n.toInt (number x).display.toList) ∧
          ofArgument (number x).display = number (if x.isNaN then .nan else x) := by
  refine ⟨rfl, fun n => ofArgument_integer (int64?_toString n), fun x => ?_⟩
  have text : (number x).display.toList = NumberLayout.plain.chars x := String.toList_ofList
  cases taken : int64? (NumberLayout.plain.chars x) with
  | some n =>
      have integer := int64?_eq_some_iff.mp taken
      have finite : x.isFinite = true := by
        by_contra infinite
        rw [(Binary64.plain_infinite (Bool.eq_false_iff.mpr infinite)).1] at taken
        cases taken
      have rounds := Binary64.rounds_of_plain integer finite
      obtain ⟨finite', equal⟩ := rounds.value_eq (Binary64.rounds_ofInt n.toInt) finite
      exact .inl ⟨n, text ▸ integer, ofArgument_integer (text ▸ taken), finite, rounds,
        Binary64.same_of_value_eq finite' finite equal.symm⟩
  | none =>
      refine .inr ⟨?_, ofArgument_number (text ▸ taken) (text ▸ Binary64.ofArgument?_plain x)⟩
      rintro ⟨n, integer⟩
      rw [text, ← int64?_eq_some_iff, taken] at integer
      cases integer

/-- The greatest number below the limit is displayed as an integer that it does not denote. -/
example : ofArgument (number ⟨0x43DFFFFFFFFFFFFF⟩).display = integer 9223372036854775000 := by decide +kernel

example : ofArgument (number ⟨0x43E0000000000000⟩).display = number ⟨0x43E0000000000000⟩ := by decide +kernel

end Value

end GuestHost
