import GuestHost.Proofs.Number.Nearest
import GuestHost.Proofs.Number.RoundTrip

/-! Layouts that keep the sign of zero lose nothing of a finite number. It is printed as a numeral, and
the numeral is read as the number. -/

namespace GuestHost

theorem Numeral.toBinary64_of_zero {n : Numeral} (zero : n.value = 0) : n.toBinary64 = .zero n.negative := by
  have power : (10 : ℚ) ^ n.exponent ≠ 0 := zpow_ne_zero _ (by norm_num)
  have none : n.digits = 0 := by exact_mod_cast (mul_eq_zero.mp zero).resolve_right power
  rw [toBinary64, if_pos none]

namespace NumberLayout

variable {l : NumberLayout} {x : Binary64}

/-- The parts of a numeral are the text of a number, and denote it. -/
structure Spells (l : NumberLayout) (x : Binary64) (s : Spelling) : Prop where
  proper : s.Proper
  text : l.chars x = if x.isNegative then '-' :: s.text else s.text
  number : (s.numeral x.isNegative).toBinary64 = x

/-- The sign comes first, unless it is the sign of a zero that the layout drops. -/
theorem chars_finite (kept : (l.signedZero || !x.isZero) = true) (finite : x.isFinite = true) :
    l.chars x = if x.isNegative then '-' :: l.unsigned x else l.unsigned x := by
  have bounded : ¬ x.isInfinite = true := by
    rw [Binary64.isInfinite_iff]
    exact (Binary64.isFinite_iff.mp finite).ne
  rw [chars, Binary64.number_of_finite finite, if_neg (by decide), if_neg bounded, kept, Bool.and_true]

/-- The text of a magnitude shows zero for a zero, and else what is rounded to the number. -/
theorem unsigned_shows (neutral : l.Neutral) (x : Binary64) : ∃ (s : Spelling) (v : ℚ),
    s.Shows (l.unsigned x) v ∧ if x.isZero then v = 0 else (RoundingInterval.of x).Holds v := by
  rw [unsigned]
  cases zero : x.isZero with
  | true =>
      obtain ⟨places, suffix⟩ := neutral
      obtain ⟨s, shows⟩ := padded_shows (List.cons_ne_nil '0' []) (.zeros 1) 0 places
      rw [suffix]
      refine ⟨s, _, shows, ?_⟩
      rw [if_pos rfl, show digitsValue ['0'] = 0 by rfl, Nat.cast_zero, zero_mul]
  | false =>
      obtain ⟨s, shows⟩ := decimal_shows neutral (x.shortest l.tie)
      exact ⟨s, _, shows, Binary64.shortest_holds zero l.tie⟩

/-- A finite number is printed as a numeral that denotes it. -/
theorem exists_spelling (neutral : l.Neutral) (signed : l.signedZero = true) (finite : x.isFinite = true) :
    ∃ s : Spelling, l.Spells x s := by
  have self := Binary64.ofMagnitude_self (Binary64.number_of_finite finite)
  obtain ⟨s, v, ⟨proper, text, value⟩, denotes⟩ := unsigned_shows neutral x
  refine ⟨s, proper, by rw [chars_finite (by rw [signed]; rfl) finite, text], ?_⟩
  cases zero : x.isZero with
  | true =>
      rw [zero, if_pos rfl] at denotes
      have none : x.magnitude = 0 := by simpa [Binary64.isZero] using zero
      rw [none] at self
      rw [Numeral.toBinary64_of_zero (n := s.numeral x.isNegative) (value.trans denotes)]
      exact self
  | false =>
      rw [zero, if_neg (by decide), ← value] at denotes
      rw [Numeral.toBinary64_of_holds (n := s.numeral x.isNegative) denotes zero]
      exact self

namespace Spells

variable {s : Spelling} (spells : l.Spells x s)

include spells

/-- The text is read as the number. -/
theorem read : (Numeral.ofChars? (l.chars x)).map Numeral.toBinary64 = some x := by
  have read : Numeral.ofChars? (l.chars x) = some (s.numeral x.isNegative) := by
    rw [spells.text]
    cases x.isNegative with
    | true => exact spells.proper.ofChars?_body rfl
    | false => exact spells.proper.ofChars?_body spells.proper.splitSign_text
  rw [read, Option.map_some, spells.number]

theorem listed : l.chars x ⊆ numeralChars := by
  rw [spells.text]
  split
  · exact List.cons_subset.mpr ⟨by decide, spells.proper.listed⟩
  · exact spells.proper.listed

theorem ne_nil : l.chars x ≠ [] := by
  obtain ⟨c, cs, text, -⟩ := spells.proper.head
  rw [spells.text, text]
  split <;> exact List.cons_ne_nil _ _

end Spells

end NumberLayout

end GuestHost
