import GuestHost.CommandLine.Run
import GuestHost.Proofs.Number.Integers
import GuestHost.Proofs.Number.Layouts
import GuestHost.Proofs.Utf8

/-! Printed results. Texts end at the first quote that is not escaped, and other values where an array goes
on or ends, so that the line for a result tells all its values: their kinds, the sign of zero and every
character. Only nothing and a single nil have one line. Numbers may be printed in any way that tells them
from each other and from integers. -/

namespace GuestHost

/-! ## Texts -/

/-- The first character of a text in quotes, and what is behind it, unless the text ends there. -/
def firstCharacter? : List Char → Option (Char × List Char)
  -- Only control characters are written by their codes, in which two digits are enough.
  | '\\' :: 'u' :: '0' :: '0' :: a :: b :: rest =>
    match digitValue? 16 a, digitValue? 16 b with
    | some high, some low => some (Char.ofNat (16 * high + low), rest)
    | _, _ => none
  | '\\' :: 'n' :: rest => some ('\n', rest)
  | '\\' :: 'r' :: rest => some ('\r', rest)
  | '\\' :: 't' :: rest => some ('\t', rest)
  | '\\' :: 'b' :: rest => some ('\x08', rest)
  | '\\' :: 'f' :: rest => some ('\x0c', rest)
  | '\\' :: c :: rest => some (c, rest)
  | '"' :: _ => none
  | c :: rest => some (c, rest)
  | [] => none

theorem firstCharacter?_escape (c : Char) (rest : List Char) :
    firstCharacter? (jsonEscape c ++ rest) = some (c, rest) := by
  unfold jsonEscape
  split_ifs with _ backslash _ _ _ _ _ control
  iterate 7
    · subst c
      rfl
  · have high := (Literal.digitValue?_digitChar (c.toNat / 16) (by omega) 16 le_rfl (by omega)).1
    have low := (Literal.digitValue?_digitChar (c.toNat % 16) (by omega) 16 le_rfl (by omega)).1
    simp only [List.cons_append, List.nil_append, firstCharacter?, high, low, Nat.div_add_mod, Char.ofNat_toNat]
  · simp [firstCharacter?, backslash]

theorem firstCharacter?_cons (c : Char) (cs rest : List Char) :
    firstCharacter? ((c :: cs).flatMap jsonEscape ++ '"' :: rest) =
      some (c, cs.flatMap jsonEscape ++ '"' :: rest) := by
  rw [List.flatMap_cons, List.append_assoc, firstCharacter?_escape]

/-- A text in quotes tells where it ends. -/
theorem escaped_unique {cs ds r r' : List Char}
    (same : cs.flatMap jsonEscape ++ '"' :: r = ds.flatMap jsonEscape ++ '"' :: r') : cs = ds ∧ r = r' := by
  induction cs generalizing ds with
  | nil =>
      cases ds with
      | nil => exact ⟨rfl, (List.cons.inj same).2⟩
      | cons d ds =>
          have first := congrArg firstCharacter? same
          rw [firstCharacter?_cons] at first
          cases first
  | cons c cs ih =>
      have first := congrArg firstCharacter? same
      rw [firstCharacter?_cons] at first
      cases ds with
      | nil => cases first
      | cons d ds =>
          rw [firstCharacter?_cons] at first
          obtain ⟨rfl, others⟩ := Prod.mk.inj (Option.some.inj first)
          obtain ⟨rfl, rest⟩ := ih others
          exact ⟨rfl, rest⟩

/-! ## Numbers -/

/-- The characters of values other than texts. -/
def bareChars : List Char := 'E' :: (numeralChars ++ "nul".toList)

theorem numeralChars_bare : numeralChars ⊆ bareChars :=
  List.subset_cons_of_subset _ (List.subset_append_left _ _)

namespace Literal

variable {negative : Bool} {cs : List Char}

theorem Sign.listed (sign : Sign negative cs) : cs ⊆ bareChars := by
  cases sign <;> decide

theorem Integer.bare {n : ℤ} (integer : Integer n cs) : cs ⊆ bareChars := by
  obtain ⟨signed, digits⟩ := integer
  exact List.append_subset.mpr ⟨signed.listed, List.Subset.trans digits.digital.listed numeralChars_bare⟩

theorem Significand.listed {v : ℚ} (significand : Significand v cs) : cs ⊆ numeralChars := by
  have point : '.' ∈ numeralChars := by decide
  cases significand with
  | whole digits => exact digits.digital.listed
  | pointed digits rest =>
      exact List.append_subset.mpr ⟨digits.digital.listed, List.cons_subset.mpr ⟨point, rest.listed⟩⟩
  | fraction digits => exact List.cons_subset.mpr ⟨point, digits.digital.listed⟩

theorem Exponent.listed {e : ℤ} (exponent : Exponent e cs) : cs ⊆ bareChars := by
  cases exponent with
  | none => exact List.nil_subset _
  | mark mark integer =>
      refine List.cons_subset.mpr ⟨?_, integer.bare⟩
      rcases mark with rfl | rfl <;> decide

theorem Decimal.listed {v : ℚ} (decimal : Decimal negative v cs) : cs ⊆ bareChars := by
  obtain ⟨signed, significand, exponent⟩ := decimal
  exact List.append_subset.mpr
    ⟨signed.listed, List.append_subset.mpr ⟨List.Subset.trans significand.listed numeralChars_bare, exponent.listed⟩⟩

end Literal

/-- A way to print numbers among other values. A finite number is a numeral that is read as the number. In
it is a point or an exponent, as is in no integer. -/
structure NumberPrinter where
  chars : Binary64 → List Char
  read {x : Binary64} : x.isFinite = true → (Numeral.ofChars? (chars x)).map Numeral.toBinary64 = some x
  marked {x : Binary64} : x.isFinite = true → '.' ∈ chars x ∨ 'e' ∈ chars x ∨ 'E' ∈ chars x

namespace NumberPrinter

variable {p : NumberPrinter} {x : Binary64}

/-- The text of a finite number is a decimal. -/
theorem exists_decimal (finite : x.isFinite = true) : ∃ negative v, Literal.Decimal negative v (p.chars x) := by
  obtain ⟨n, read, -⟩ := Option.map_eq_some_iff.mp (p.read finite)
  exact ⟨n.negative, n.value, Literal.decimal_of_read read⟩

/-- No finite number is printed as an integer. -/
theorem int64?_chars (finite : x.isFinite = true) : int64? (p.chars x) = none := by
  rw [Option.eq_none_iff_forall_ne_some]
  intro n read
  have listed := (int64?_eq_some_iff.mp read).listed
  rcases p.marked finite with point | exponent | exponent
  · exact absurd (listed _ point) (by decide)
  · exact absurd (listed _ exponent) (by decide)
  · exact absurd (listed _ exponent) (by decide)

end NumberPrinter

namespace NumberLayout

variable {l : NumberLayout} {x : Binary64}

/-- There is a point in every decimal, or an exponent, if there is a point behind whole numbers. -/
theorem decimal_marked (point : '.' ∈ l.wholeSuffix) (d : Decimal) : '.' ∈ l.decimal d ∨ 'e' ∈ l.decimal d := by
  unfold decimal
  dsimp only
  split
  · left
    unfold positional
    dsimp only
    split
    · exact List.mem_append_right _ point
    · split
      · exact List.mem_append_right _ List.mem_cons_self
      · exact List.mem_append_left _ (List.mem_append_left _ (by decide))
  · exact .inr (List.mem_append_right _ List.mem_cons_self)

theorem unsigned_marked (point : '.' ∈ l.wholeSuffix) (x : Binary64) : '.' ∈ l.unsigned x ∨ 'e' ∈ l.unsigned x := by
  unfold unsigned
  split
  · exact .inl (List.mem_cons_of_mem _ point)
  · exact decimal_marked point _

theorem chars_marked (signed : l.signedZero = true) (point : '.' ∈ l.wholeSuffix) (finite : x.isFinite = true) :
    '.' ∈ l.chars x ∨ 'e' ∈ l.chars x := by
  rw [chars_finite (by rw [signed]; rfl) finite]
  split
  · exact (unsigned_marked point x).imp (List.mem_cons_of_mem _) (List.mem_cons_of_mem _)
  · exact unsigned_marked point x

/-- A layout serves if it keeps the sign of zero and has a point behind whole numbers, wherever it starts to
use exponents. -/
def printer (l : NumberLayout) (neutral : l.Neutral) (signed : l.signedZero = true)
    (point : '.' ∈ l.wholeSuffix) : NumberPrinter where
  chars := l.chars
  read finite := (exists_spelling neutral signed finite).elim fun _ spells => spells.read
  marked finite := (chars_marked signed point finite).imp_right .inl

/-- The layout of the command line. -/
def jsonPrinter : NumberPrinter := json.printer ⟨1, rfl⟩ rfl (by decide)

end NumberLayout

/-! ## Values -/

/-- Nothing is behind a value, or what an array goes on or ends with. -/
def Ended (rest : List Char) : Prop := ∀ c, rest.head? = some c → c ∉ bareChars

/-- Values without quotes tell where they end, and so what they are. -/
theorem bare_unique {cs ds r r' : List Char} (bare : cs ⊆ bareChars) (bare' : ds ⊆ bareChars) (ended : Ended r)
    (ended' : Ended r') (same : cs ++ r = ds ++ r') : cs = ds ∧ r = r' := by
  have front {cs r : List Char} (bare : cs ⊆ bareChars) (ended : Ended r) :
      (cs ++ r).takeWhile (· ∈ bareChars) = cs := by
    have stop : r.takeWhile (· ∈ bareChars) = [] := by
      cases r with
      | nil => rfl
      | cons c r => exact List.takeWhile_cons_of_neg (by simpa using ended c rfl)
    rw [List.takeWhile_append_of_pos fun c listed => decide_eq_true (bare listed), stop, List.append_nil]
  have fronts : cs = ds := by rw [← front bare ended, same, front bare' ended']
  subst fronts
  exact ⟨rfl, List.append_cancel_left same⟩

namespace Value

variable {p : NumberPrinter} {v w : Value} {vs ws : List Value} {r r' : List Char}

/-- No infinite number, nor what is not a number. -/
def isFinite : Value → Bool
  | number x => x.isFinite
  | _ => true

/-- The value that is written without quotes. -/
def ofBare? (cs : List Char) : Option Value :=
  if cs = "null".toList then some nil
  else
    match int64? cs with
    | some n => some (integer n)
    | none => (Numeral.ofChars? cs).map fun n => number n.toBinary64

/-- A value is written without quotes and read as itself. -/
structure Bare (p : NumberPrinter) (v : Value) : Prop where
  some_chars : v.jsonChars p.chars ≠ []
  listed : v.jsonChars p.chars ⊆ bareChars
  read : ofBare? (v.jsonChars p.chars) = some v

theorem bare_nil : Bare p nil := by
  refine ⟨List.cons_ne_nil _ _, ?_, rfl⟩
  change "null".toList ⊆ bareChars
  decide

theorem bare_integer (n : Int64) : Bare p (integer n) := by
  have read := int64?_toString n
  have other : (toString n.toInt).toList ≠ "null".toList := by
    intro null
    rw [null] at read
    cases read
  refine ⟨?_, (int64?_eq_some_iff.mp read).bare, ?_⟩
  · intro none
    change (toString n.toInt).toList = [] at none
    rw [none] at read
    cases read
  · rw [jsonChars, ofBare?, if_neg other, read]

theorem bare_number {x : Binary64} (finite : x.isFinite = true) : Bare p (number x) := by
  obtain ⟨negative, v, decimal⟩ := p.exists_decimal finite
  have read := p.read finite
  have other : p.chars x ≠ "null".toList := by
    intro null
    rw [null] at read
    cases read
  refine ⟨?_, decimal.listed, ?_⟩
  · intro none
    change p.chars x = [] at none
    rw [none] at read
    cases read
  · obtain ⟨n, read, same⟩ := Option.map_eq_some_iff.mp read
    rw [jsonChars, ofBare?, if_neg other, p.int64?_chars finite, read, ← same]
    rfl

/-- A value is a text or written without quotes. -/
theorem bare_or_text (p : NumberPrinter) (finite : v.isFinite = true) : Bare p v ∨ ∃ s, v = text s := by
  cases v with
  | nil => exact .inl bare_nil
  | integer n => exact .inl (bare_integer n)
  | number x => exact .inl (bare_number finite)
  | text s => exact .inr ⟨s, rfl⟩

/-- The first character without quotes is no quote and opens no array. -/
theorem Bare.head (bare : Bare p v) : ∃ c cs, v.jsonChars p.chars = c :: cs ∧ c ≠ '"' ∧ c ≠ '[' := by
  obtain ⟨c, cs, chars⟩ := List.exists_cons_of_ne_nil bare.some_chars
  have listed : c ∈ bareChars := bare.listed (chars ▸ List.mem_cons_self)
  refine ⟨c, cs, chars, ?_, ?_⟩
  · exact ne_of_mem_of_not_mem listed (by decide)
  · exact ne_of_mem_of_not_mem listed (by decide)

theorem jsonChars_text (numbers : Binary64 → List Char) (s : String) (r : List Char) :
    (text s).jsonChars numbers ++ r = '"' :: (s.toList.flatMap jsonEscape ++ '"' :: r) := by
  simp [jsonChars, jsonString]

/-- A value tells where it ends, and so what it is. -/
theorem jsonChars_unique (finite : v.isFinite = true) (finite' : w.isFinite = true) (ended : Ended r)
    (ended' : Ended r') (same : v.jsonChars p.chars ++ r = w.jsonChars p.chars ++ r') : v = w ∧ r = r' := by
  -- Only texts start with a quote, so that the two are of one sort.
  rcases bare_or_text p finite with bare | ⟨s, rfl⟩
  · obtain ⟨c, cs, chars, quote, -⟩ := bare.head
    rcases bare_or_text p finite' with bare' | ⟨t, rfl⟩
    · obtain ⟨equal, rest⟩ := bare_unique bare.listed bare'.listed ended ended' same
      have read := bare.read
      rw [equal, bare'.read] at read
      exact ⟨(Option.some.inj read).symm, rest⟩
    · rw [chars, jsonChars_text] at same
      exact absurd (List.cons.inj same).1 quote
  · rcases bare_or_text p finite' with bare' | ⟨t, rfl⟩
    · obtain ⟨c, cs, chars, quote, -⟩ := bare'.head
      rw [chars, jsonChars_text] at same
      exact absurd (List.cons.inj same).1.symm quote
    · rw [jsonChars_text, jsonChars_text] at same
      obtain ⟨equal, rest⟩ := escaped_unique (List.cons.inj same).2
      rw [String.toList_inj.mp equal]
      exact ⟨rfl, rest⟩

/-! ## Arrays -/

/-- A value opens no array. -/
theorem jsonChars_ne_array (finite : v.isFinite = true) : v.jsonChars p.chars ≠ '[' :: r := by
  intro opened
  rcases bare_or_text p finite with bare | ⟨s, rfl⟩
  · obtain ⟨c, cs, chars, -, bracket⟩ := bare.head
    exact bracket (List.cons.inj (chars.symm.trans opened)).1
  · cases (List.cons.inj opened).1

/-- What is behind the first element of an array. -/
def others (p : NumberPrinter) : List Value → List Char
  | [] => [']']
  | v :: vs => ',' :: (v.jsonChars p.chars ++ others p vs)

theorem others_ended (vs : List Value) : Ended (others p vs) := by
  intro c first
  cases vs with
  | nil =>
      cases first
      decide
  | cons v vs =>
      cases first
      decide

theorem intercalate_jsonChars (v : Value) (vs : List Value) :
    List.intercalate [','] ((v :: vs).map (jsonChars p.chars)) ++ [']'] = v.jsonChars p.chars ++ others p vs := by
  induction vs generalizing v with
  | nil => simp [others]
  | cons w vs ih =>
      rw [List.map_cons, List.map_cons, List.intercalate_cons_cons, ← List.map_cons, List.append_assoc,
        List.append_assoc, ih]
      rfl

theorem others_unique (finite : ∀ v ∈ vs, v.isFinite = true) (finite' : ∀ w ∈ ws, w.isFinite = true)
    (same : others p vs = others p ws) : vs = ws := by
  induction vs generalizing ws with
  | nil =>
      cases ws with
      | nil => rfl
      | cons w ws => cases (List.cons.inj same).1
  | cons v vs ih =>
      cases ws with
      | nil => cases (List.cons.inj same).1
      | cons w ws =>
          obtain ⟨first, later⟩ := List.forall_mem_cons.mp finite
          obtain ⟨first', later'⟩ := List.forall_mem_cons.mp finite'
          obtain ⟨rfl, rest⟩ :=
            jsonChars_unique first first' (others_ended vs) (others_ended ws) (List.cons.inj same).2
          rw [ih later later' rest]

end Value

namespace Returned

open Value

variable {p : NumberPrinter} {vs ws : List Value}

/-- The only value of a result, or nil if there is none. -/
def Only (v : Value) (vs : List Value) : Prop := vs = [v] ∨ vs = [] ∧ v = .nil

/-- A result is printed as its only value, or as an array of two values or more. -/
theorem jsonChars_cases (vs : List Value) :
    (∃ v, Only v vs ∧ (ofList vs).jsonChars p.chars = v.jsonChars p.chars) ∨
      ∃ v us, vs = v :: us ∧ (ofList vs).jsonChars p.chars = '[' :: (v.jsonChars p.chars ++ others p us) := by
  match vs with
  | [] => exact .inl ⟨.nil, .inr ⟨rfl, rfl⟩, rfl⟩
  | [v] => exact .inl ⟨v, .inl rfl, rfl⟩
  | v :: w :: us =>
      refine .inr ⟨v, w :: us, rfl, ?_⟩
      rw [← intercalate_jsonChars]
      rfl

theorem Only.finite {v : Value} (only : Only v vs) (finite : ∀ v ∈ vs, v.isFinite = true) : v.isFinite = true := by
  rcases only with rfl | ⟨-, rfl⟩
  · exact finite v List.mem_cons_self
  · rfl

theorem Only.unique {v : Value} (only : Only v vs) (only' : Only v ws) :
    vs = ws ∨ vs = [] ∧ ws = [.nil] ∨ vs = [.nil] ∧ ws = [] := by
  rcases only with rfl | ⟨rfl, rfl⟩
  · rcases only' with rfl | ⟨rfl, rfl⟩
    · exact .inl rfl
    · exact .inr (.inr ⟨rfl, rfl⟩)
  · rcases only' with rfl | ⟨rfl, -⟩
    · exact .inr (.inl ⟨rfl, rfl⟩)
    · exact .inl rfl

/-- The printed text tells the values, but for nothing and a single nil. -/
theorem jsonChars_ofList_unique (finite : ∀ v ∈ vs, v.isFinite = true) (finite' : ∀ w ∈ ws, w.isFinite = true)
    (same : (ofList vs).jsonChars p.chars = (ofList ws).jsonChars p.chars) :
    vs = ws ∨ vs = [] ∧ ws = [.nil] ∨ vs = [.nil] ∧ ws = [] := by
  have ended : Ended [] := fun _ first => nomatch first
  rcases jsonChars_cases (p := p) vs with ⟨v, only, chars⟩ | ⟨v, us, rfl, chars⟩
  · rcases jsonChars_cases (p := p) ws with ⟨w, only', chars'⟩ | ⟨w, us, rfl, chars'⟩
    · have values : v.jsonChars p.chars ++ [] = w.jsonChars p.chars ++ [] := by
        rw [List.append_nil, List.append_nil, ← chars, same, chars']
      obtain ⟨rfl, -⟩ := jsonChars_unique (only.finite finite) (only'.finite finite') ended ended values
      exact only.unique only'
    · exact absurd (chars.symm.trans (same.trans chars')) (jsonChars_ne_array (only.finite finite))
  · rcases jsonChars_cases (p := p) ws with ⟨w, only', chars'⟩ | ⟨w, us', rfl, chars'⟩
    · exact absurd (chars'.symm.trans (same.symm.trans chars)) (jsonChars_ne_array (only'.finite finite'))
    · -- With a comma before its first element, an array is what is behind an element of another.
      have elements : others p (v :: us) = others p (w :: us') :=
        congrArg (',' :: ·) (List.cons.inj (chars.symm.trans (same.trans chars'))).2
      exact .inl (others_unique finite finite' elements)

end Returned

namespace CommandLine

/-- The line that the command line prints for returned values tells how many there are and what they are:
integers apart from numbers, zeros with their signs, texts by their characters. Only nothing and a single nil
have one line. Numbers may be printed in any way that serves, as they are in the layout of the command
line. -/
theorem resultLine_eq_iff (p : NumberPrinter) {vs ws : List Value} (finite : ∀ v ∈ vs, v.isFinite = true)
    (finite' : ∀ w ∈ ws, w.isFinite = true) :
    resultLine p.chars (.ofList vs) = resultLine p.chars (.ofList ws) ↔
      vs = ws ∨ vs = [] ∧ ws = [.nil] ∨ vs = [.nil] ∧ ws = [] := by
  constructor
  · intro same
    have decoded := congrArg Utf8.decodeLossy (Prod.mk.inj same).2
    rw [Utf8.decodeLossy_encode, Utf8.decodeLossy_encode, String.append_left_inj] at decoded
    exact Returned.jsonChars_ofList_unique finite finite' (String.ofList_inj.mp decoded)
  · rintro (rfl | ⟨rfl, rfl⟩ | ⟨rfl, rfl⟩)
    · rfl
    · rfl
    · rfl

/-- A zero keeps its sign, beside a text that reads like the end of an array. -/
theorem resultLine_zeros :
    (∀ v ∈ [Value.text "],[", .number ⟨0x8000000000000000⟩], v.isFinite = true) ∧
      (∀ w ∈ [Value.text "],[", .number ⟨0⟩], w.isFinite = true) ∧
      resultLine NumberLayout.json.chars (.ofList [.text "],[", .number ⟨0x8000000000000000⟩]) ≠
        resultLine NumberLayout.json.chars (.ofList [.text "],[", .number ⟨0⟩]) := by
  have finite : ∀ v ∈ [Value.text "],[", .number ⟨0x8000000000000000⟩], v.isFinite = true := by decide
  have finite' : ∀ w ∈ [Value.text "],[", .number ⟨0⟩], w.isFinite = true := by decide
  refine ⟨finite, finite', fun same => ?_⟩
  have told := (resultLine_eq_iff NumberLayout.jsonPrinter finite finite').mp same
  revert told
  decide

end CommandLine

end GuestHost
