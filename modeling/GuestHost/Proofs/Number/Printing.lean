import GuestHost.Proofs.Number.Canonical
import GuestHost.Proofs.Number.Intervals
import GuestHost.Proofs.Number.Layouts

/-! How scripts print a number: the shortest decimal that is rounded to it, in plain notation from a
millionth up to below the twenty-first power of ten and with an exponent elsewhere, with no zero more than
the notation needs. The text is put together from one in scientific notation with words of 32 bits,
and no word, no count and no slice on the way leaves its bounds. -/

namespace GuestHost

/-! ## The window -/

namespace Binary64

variable {x y : Binary64} {v : ℚ} {k : ℤ} {tie : Tie}

/-- How many digits of a decimal there are before the point, or zeros behind it if the count is negative. -/
theorem decimal_range {d : Decimal} (ended : d.digits % 10 ≠ 0) :
    (10 : ℚ) ^ (d.exponent + d.text.length - 1) ≤ d.value ∧ d.value < 10 ^ (d.exponent + d.text.length) := by
  have some_d : d.digits ≠ 0 := fun zero => ended (by rw [zero])
  have range := Numeral.value_range (n := ⟨false, d.digits, d.exponent⟩) some_d
  rwa [Numeral.size, Int.add_comm] at range

/-- A number whose decimal is a power of ten parts the decimals with more places from the others. -/
theorem size_le_iff (some_x : x.isZero = false) (some_y : y.isZero = false) (finite_x : x.isFinite = true)
    (finite_y : y.isFinite = true) (power : y.shortest tie = ⟨1, k⟩) :
    y.size ≤ x.size ↔ k < (x.shortest tie).exponent + (x.shortest tie).text.length := by
  have holds_x := shortest_holds some_x tie
  have holds_y := shortest_holds some_y tie
  obtain ⟨low, high⟩ := decimal_range (shortest_mod_ten some_x tie)
  have one : (y.shortest tie).value = 10 ^ k := by
    rw [power, Decimal.value]
    exact one_mul _
  rw [one] at holds_y
  rcases lt_trichotomy y.size x.size with less | same | more
  · have above := (holds_y.lt holds_x some_y less finite_x).trans high
    exact iff_of_true less.le ((zpow_lt_zpow_iff_right₀ (by norm_num)).mp above)
  · have shortest : x.shortest tie = ⟨1, k⟩ := by
      rw [← power, Binary64.shortest, Binary64.shortest, of_eq_of_magnitude (magnitude_eq_iff.mpr same)]
    have digits : (⟨1, k⟩ : Decimal).text.length = 1 :=
      congrArg List.length (Nat.toDigits_of_lt_base (show 1 < 10 by decide))
    refine iff_of_true same.le ?_
    rw [shortest, digits]
    exact Int.lt_succ k
  · have below := low.trans_lt (holds_x.lt holds_y some_x more finite_y)
    have less := (zpow_lt_zpow_iff_right₀ (by norm_num)).mp below
    exact iff_of_false more.not_ge (by omega)

end Binary64

/-! ## The computation -/

/-- The text of a decimal with one digit before the point and its exponent, signed only if negative. -/
def Decimal.exponential (d : Decimal) : List Char :=
  let e := d.exponent + d.text.length - 1
  d.text.take 1 ++ (if (d.text.drop 1).isEmpty then [] else '.' :: d.text.drop 1) ++
    'e' :: ((if e < 0 then ['-'] else []) ++ Nat.toDigits 10 e.natAbs)

namespace NumberLayout

/-- An integer that fits a word of 32 bits and so does its absolute value. -/
def word? (n : ℤ) : Option ℤ := if n.natAbs < 2 ^ 31 then some n else none

/-- So many zeros, if the count is one. -/
def zeros? (n : ℤ) : Option (List Char) := if 0 ≤ n then some (List.replicate n.toNat '0') else none

/-- What is before a place in a text and what is behind it, if it is a place there. -/
def cut? (cs : List Char) (n : ℤ) : Option (List Char × List Char) :=
  if 0 ≤ n ∧ n ≤ cs.length then some (cs.take n.toNat, cs.drop n.toNat) else none

/-- The layout of scripts for digits and the place of their point, put together with words, counts and
slices; nothing, if one of them leaves its bounds. -/
def place? (digits : List Char) (n : ℤ) : Option (List Char) := do
  let k ← word? digits.length
  if k ≤ n ∧ n ≤ 21 then
    let padding ← (word? (n - k)).bind zeros?
    some (digits ++ padding)
  else if 0 < n ∧ n ≤ 21 then
    let (whole, fraction) ← cut? digits n
    some (whole ++ '.' :: fraction)
  else if -6 < n ∧ n ≤ 0 then
    let padding ← (word? (-n)).bind zeros?
    some (['0', '.'] ++ padding ++ digits)
  else
    let e ← word? (n - 1)
    let size ← word? e.natAbs
    let (lead, fraction) ← cut? digits 1
    some (lead ++ (if fraction.isEmpty then [] else '.' :: fraction) ++
      'e' :: (if e < 0 then '-' else '+') :: Nat.toDigits 10 size.toNat)

/-- The same for a text with an exponent, from which the digits and the place are taken. -/
def fromExponential? (text : List Char) : Option (List Char) := do
  let exponent := if 'e' ∈ text then (text.dropWhile (· ≠ 'e')).drop 1 else ['0']
  let n ← word? (((integer? exponent).bind word?).getD 0 + 1)
  place? ((text.takeWhile (· ≠ 'e')).filter (· ≠ '.')) n

variable {n : ℤ} {cs digits : List Char}

theorem word?_of_small (small : n.natAbs < 2 ^ 31) : word? n = some n := if_pos small

theorem zeros?_of_nonneg (nonneg : 0 ≤ n) : zeros? n = some (List.replicate n.toNat '0') := if_pos nonneg

theorem cut?_of_within (nonneg : 0 ≤ n) (within : n ≤ cs.length) :
    cut? cs n = some (cs.take n.toNat, cs.drop n.toNat) := if_pos ⟨nonneg, within⟩

/-- An exponent is read whether it has a sign or not. -/
theorem integer?_signed (e : ℤ) : integer? ((if e < 0 then ['-'] else []) ++ Nat.toDigits 10 e.natAbs) = some e := by
  have digits : Literal.Digits (Nat.toDigits 10 e.natAbs) := ⟨Nat.toDigits_ne_nil, .toDigits _⟩
  rw [Literal.integer?_eq_some_iff]
  by_cases negative : e < 0
  · have integer := Literal.Integer.mk .minus digits
    rw [digitsValue_toDigits, if_pos rfl, show -(e.natAbs : ℤ) = e by omega] at integer
    rwa [if_pos negative]
  · have integer := Literal.Integer.mk .none digits
    rw [digitsValue_toDigits, if_neg (by decide), show (e.natAbs : ℤ) = e by omega] at integer
    rwa [if_neg negative]

/-- The text falls into the digits and the exponent. -/
theorem exponential_parts (d : Decimal) :
    (d.exponential.takeWhile (· ≠ 'e')).filter (· ≠ '.') = d.text ∧ 'e' ∈ d.exponential ∧
      integer? ((d.exponential.dropWhile (· ≠ 'e')).drop 1) = some (d.exponent + d.text.length - 1) := by
  have digital : Digital d.text := .toDigits d.digits
  have unmarked {cs : List Char} (digital : Digital cs) : ∀ c ∈ cs, decide (c ≠ 'e') = true := by
    intro c listed
    refine decide_eq_true ?_
    rintro rfl
    cases digital _ listed
  obtain ⟨front, mantissa⟩ : ∃ front, front = d.text.take 1 ++
    (if (d.text.drop 1).isEmpty then [] else '.' :: d.text.drop 1) := ⟨_, rfl⟩
  have before : ∀ c ∈ front, decide (c ≠ 'e') = true := by
    rw [mantissa, List.forall_mem_append]
    refine ⟨unmarked (digital.take 1), ?_⟩
    split
    · exact fun _ => nofun
    · exact List.forall_mem_cons.mpr ⟨rfl, unmarked (digital.drop 1)⟩
  have filtered : front.filter (· ≠ '.') = d.text := by
    conv_rhs => rw [← List.take_append_drop 1 d.text]
    rw [mantissa, List.filter_append, (digital.take 1).filter_point]
    congr 1
    split
    · next empty => rw [List.isEmpty_iff.mp empty, List.filter_nil]
    · exact (digital.drop 1).filter_point
  unfold Decimal.exponential
  dsimp only
  rw [← mantissa, List.takeWhile_append_of_pos before, List.dropWhile_append_of_pos before]
  refine ⟨?_, List.mem_append_right _ List.mem_cons_self, integer?_signed _⟩
  rw [List.takeWhile_cons_of_neg (by decide), List.append_nil, filtered]

/-- Nothing leaves its bounds, and the layout is the one of scripts. -/
theorem place?_eq_some (some_digits : 0 < digits.length) (short : digits.length ≤ 17) (near : n.natAbs ≤ 2000) :
    place? digits n = some (if script.isPositional n then script.positional digits n else scientific digits n) := by
  have window : script.isPositional n = true ↔ -6 < n ∧ n ≤ 21 := by simp [isPositional, script]
  have bare : script.wholeSuffix = [] := rfl
  unfold place?
  rw [word?_of_small (by omega), positional, bare]
  simp only [Option.bind_eq_bind, Option.bind_some, window]
  by_cases whole : (digits.length : ℤ) ≤ n ∧ n ≤ 21
  · rw [if_pos whole, if_pos (by omega), if_pos whole.1, word?_of_small (by omega), Option.bind_some,
      zeros?_of_nonneg (by omega), Option.bind_some, List.append_nil]
  · rw [if_neg whole]
    by_cases inside : 0 < n ∧ n ≤ 21
    · rw [if_pos inside, if_pos (by omega), if_neg (by omega), if_pos inside.1,
        cut?_of_within (by omega) (by omega), Option.bind_some]
    · rw [if_neg inside]
      by_cases small : -6 < n ∧ n ≤ 0
      · rw [if_pos small, if_pos (by omega), if_neg (by omega), if_neg (by omega), word?_of_small (by omega),
          Option.bind_some, zeros?_of_nonneg (by omega), Option.bind_some]
      · rw [if_neg small, if_neg (by omega), word?_of_small (by omega), Option.bind_some,
          word?_of_small (by omega), Option.bind_some, cut?_of_within (by decide) (by omega), Option.bind_some]
        rfl

theorem fromExponential?_eq_some {d : Decimal} (short : d.text.length ≤ 17) (low : -1100 ≤ d.exponent)
    (high : d.exponent ≤ 1200) : fromExponential? d.exponential = some (script.decimal d) := by
  obtain ⟨digits, marked, exponent⟩ := exponential_parts d
  have some_digits : 0 < d.text.length := Nat.length_toDigits_pos
  have small : word? (d.exponent + d.text.length - 1) = some (d.exponent + d.text.length - 1) :=
    word?_of_small (by omega)
  rw [fromExponential?, digits, if_pos marked, exponent, Option.bind_some, small, Option.getD_some, sub_add_cancel,
    word?_of_small (by omega)]
  exact place?_eq_some some_digits short (by omega)

/-! ## The text of a number -/

theorem chars_script {x : Binary64} (finite : x.isFinite = true) (some_x : x.isZero = false) :
    script.chars x =
      if x.value < 0 then '-' :: script.decimal (x.shortest .up) else script.decimal (x.shortest .up) := by
  have sign := Binary64.value_neg_iff some_x
  rw [chars_finite (by rw [some_x]; rfl) finite, unsigned, some_x]
  by_cases negative : x.value < 0
  · rw [if_pos negative, sign.mp negative]
    rfl
  · rw [if_neg negative, Bool.eq_false_iff.mpr (sign.not.mp negative)]
    rfl

/-- From the number nearest to a millionth up to below the twenty-first power of ten. -/
def InWindow (x : Binary64) : Prop :=
  (Binary64.ofRatio false 1 (10 ^ 6)).value ≤ |x.value| ∧ |x.value| < 10 ^ 21

instance (x : Binary64) : Decidable (InWindow x) := inferInstanceAs (Decidable (_ ∧ _))

/-- The window of scripts ends at two numbers. -/
theorem isPositional_iff {x : Binary64} (finite : x.isFinite = true) (some_x : x.isZero = false) :
    script.isPositional ((x.shortest .up).exponent + (x.shortest .up).text.length) = true ↔ InWindow x := by
  have first : (Binary64.ofRatio false 1 (10 ^ 6)).shortest .up = ⟨1, -6⟩ := by decide +kernel
  have last : (Binary64.ofRatio false (10 ^ 21) 1).shortest .up = ⟨1, 21⟩ := by decide +kernel
  have low := Binary64.size_le_iff some_x (by decide +kernel) finite (by decide +kernel) first
  have high := Binary64.size_le_iff some_x (by decide +kernel) finite (by decide +kernel) last
  have limit : (Binary64.ofRatio false (10 ^ 21) 1).size = 10 ^ 21 := by
    have bits : Binary64.ofRatio false (10 ^ 21) 1 = ⟨0x444B1AE4D6E2EF50⟩ := by decide +kernel
    rw [bits, Binary64.size, show (Binary64.mk 0x444B1AE4D6E2EF50).significand = 7629394531250000 by decide,
      show (Binary64.mk 0x444B1AE4D6E2EF50).scale = 17 by decide]
    norm_num
  rw [limit] at high
  change _ ↔ (Binary64.ofRatio false 1 (10 ^ 6)).size ≤ _ ∧ _
  rw [x.abs_value, low, ← not_le (a := (10 : ℚ) ^ 21), high, not_lt]
  simp [isPositional, script]

/-- A decimal with the sign of a number is rounded to it, none with fewer digits is, and of those with as
many none is nearer to the number. -/
structure Shortest (x : Binary64) (d : Decimal) : Prop where
  rounds : Binary64.Rounds (Binary64.signed x.isNegative d.value) x
  fewest : ∀ e : Decimal, Binary64.Rounds (Binary64.signed x.isNegative e.value) x → d.text.length ≤ e.text.length
  nearest : ∀ e : Decimal, Binary64.Rounds (Binary64.signed x.isNegative e.value) x →
    e.text.length = d.text.length →
      |Binary64.signed x.isNegative d.value - x.value| ≤ |Binary64.signed x.isNegative e.value - x.value|

theorem shortest_spec {x : Binary64} (finite : x.isFinite = true) (some_x : x.isZero = false) (tie : Tie) :
    Shortest x (x.shortest tie) where
  rounds := by
    have rounds := (Binary64.shortest_holds some_x tie).rounds some_x x.isNegative
    rwa [Binary64.ofMagnitude_self (Binary64.number_of_finite finite)] at rounds
  fewest _ rounds := Binary64.shortest_fewest some_x tie (RoundingInterval.holds_of_rounds some_x finite rounds)
  nearest _ rounds as_many := by
    rw [Binary64.value, Binary64.abs_signed_sub, Binary64.signed_signed, Binary64.abs_signed_sub,
      Binary64.signed_signed]
    exact Binary64.shortest_nearest some_x tie (RoundingInterval.holds_of_rounds some_x finite rounds) as_many

/-- The layout of a decimal that does not end in a zero is the only canonical text for it. -/
theorem decimal_canonical {l : NumberLayout} {d : Decimal} (bare : l.wholeSuffix = []) (ended : d.digits % 10 ≠ 0) :
    (∀ cs, cs = l.decimal d ↔ if l.isPositional (d.exponent + d.text.length) then Literal.Plain d.value cs
      else Literal.Scientific d.value cs) ∧
    (Literal.Plain d.value (l.decimal d) ↔ l.isPositional (d.exponent + d.text.length) = true) ∧
    (l.isPositional (d.exponent + d.text.length) = true →
      (l.decimal d).filter (· ≠ '.') = List.replicate (-Int.log 10 d.value).toNat '0' ++ d.text ++
        List.replicate (Int.log 10 d.value + 1 - d.text.length).toNat '0') := by
  have some_d : d.digits ≠ 0 := fun zero => ended (by rw [zero])
  have proper : Literal.Digits d.text := ⟨Nat.toDigits_ne_nil, .toDigits d.digits⟩
  have first : d.text.head? ≠ some '0' := head_toDigits some_d
  have last : d.text.getLast? ≠ some '0' := getLast_toDigits ended
  have value : d.value = digitsValue d.text * 10 ^ (d.exponent + d.text.length - d.text.length) := by
    rw [Decimal.value, Decimal.text, digitsValue_toDigits, add_sub_cancel_right]
  obtain ⟨low, high⟩ := Binary64.decimal_range ended
  have logarithm : Int.log 10 d.value = d.exponent + d.text.length - 1 :=
    log_eq_of_powers (by norm_num) (by rwa [Nat.cast_ofNat]) (by rwa [Nat.cast_ofNat, sub_add_cancel])
  unfold decimal
  dsimp only
  by_cases window : l.isPositional (d.exponent + d.text.length) = true
  · have plain := positional_plain proper first last (d.exponent + d.text.length) bare
    rw [← value] at plain
    simp only [if_pos window]
    refine ⟨fun cs => ⟨fun same => same ▸ plain, fun other => other.unique plain rfl⟩,
      iff_of_true plain window, fun _ => ?_⟩
    rw [positional_filter proper _ bare, logarithm, neg_sub, sub_add_cancel]
  · have scientific := scientific_canonical proper first last (d.exponent + d.text.length)
    rw [← value] at scientific
    simp only [if_neg window]
    exact ⟨fun cs => ⟨fun same => same ▸ scientific, fun other => other.unique scientific rfl⟩,
      iff_of_false (fun plain => plain.unmarked scientific.marked) window, fun inside => absurd inside window⟩

/-- The text of a number is the canonical one of the shortest decimal for it, behind a sign if it is
negative: in plain notation if the number is in the window, with the zeros that lead up to the first digit of
the decimal or follow on the last, and with an exponent if it is not. -/
theorem script_canonical {x : Binary64} (finite : x.isFinite = true) (some_x : x.isZero = false) :
    ∃ (d : Decimal) (body : List Char), Shortest x d ∧ d = x.shortest .up ∧
      script.render x = String.ofList (if x.value < 0 then '-' :: body else body) ∧
      fromExponential? d.exponential = some body ∧
      (∀ cs, cs = body ↔ if InWindow x then Literal.Plain d.value cs else Literal.Scientific d.value cs) ∧
      (Literal.Plain d.value body ↔ InWindow x) ∧
      (InWindow x → body.filter (· ≠ '.') = List.replicate (-Int.log 10 d.value).toNat '0' ++ d.text ++
        List.replicate (Int.log 10 d.value + 1 - d.text.length).toNat '0') := by
  have ended := Binary64.shortest_mod_ten some_x .up
  obtain ⟨low, high⟩ := x.shortest_exponent .up
  have short := Binary64.length_shortest some_x .up
  have canonical := decimal_canonical (l := script) rfl ended
  simp only [isPositional_iff finite some_x] at canonical
  refine ⟨x.shortest .up, script.decimal (x.shortest .up), shortest_spec finite some_x .up, rfl, ?_,
    fromExponential?_eq_some short low high, canonical⟩
  rw [render, chars_script finite some_x]

/-- The number nearest to a millionth is below it, and still in plain notation. -/
theorem millionth_plain : (Binary64.mk 0x3EB0C6F7A0B5ED8D).isFinite = true ∧
    (Binary64.mk 0x3EB0C6F7A0B5ED8D).isZero = false ∧ (Binary64.mk 0x3EB0C6F7A0B5ED8D).value < 10 ^ (-6 : ℤ) ∧
      Literal.Plain (10 ^ (-6 : ℤ)) (script.render ⟨0x3EB0C6F7A0B5ED8D⟩).toList := by
  have bits : Binary64.ofRatio false 1 (10 ^ 6) = ⟨0x3EB0C6F7A0B5ED8D⟩ := by decide +kernel
  have shortest : (Binary64.mk 0x3EB0C6F7A0B5ED8D).shortest .up = ⟨1, -6⟩ := by decide +kernel
  have value : (Binary64.mk 0x3EB0C6F7A0B5ED8D).value = 4722366482869645 * 2 ^ (-72 : ℤ) := by
    change ((Binary64.mk 0x3EB0C6F7A0B5ED8D).significand : ℚ) * 2 ^ (Binary64.mk 0x3EB0C6F7A0B5ED8D).scale = _
    rw [show (Binary64.mk 0x3EB0C6F7A0B5ED8D).significand = 4722366482869645 by decide,
      show (Binary64.mk 0x3EB0C6F7A0B5ED8D).scale = -72 by decide]
    norm_num
  obtain ⟨d, body, -, rfl, text, -, -, plain, -⟩ :=
    script_canonical (x := ⟨0x3EB0C6F7A0B5ED8D⟩) (by decide) (by decide)
  have inside : InWindow ⟨0x3EB0C6F7A0B5ED8D⟩ := by
    refine ⟨bits ▸ le_abs_self _, ?_⟩
    rw [value]
    norm_num
  refine ⟨by decide, by decide, ?_, ?_⟩
  · rw [value]
    norm_num
  · have denoted := plain.mpr inside
    rw [shortest, Decimal.value, Nat.cast_one, one_mul] at denoted
    rwa [text, if_neg (by rw [value]; norm_num), String.toList_ofList]

end NumberLayout

end GuestHost
