import GuestHost.Proofs.Number.Grammar

/-! The two canonical texts of a decimal: in plain notation, and with an exponent. Each value has at most
one text of each kind, and the layout of a decimal that does not end in zero is one of the two. -/

namespace GuestHost

/-! ## Digits -/

variable {cs rest : List Char} {c : Char} {n : ℕ}

theorem digit_bounds (digit : c.isDigit = true) : 48 ≤ c.toNat ∧ c.toNat ≤ 57 := Char.isDigit_iff_toNat.mp digit

theorem digitsValue_singleton (c : Char) : digitsValue [c] = c.toNat - 48 := Nat.zero_add _

theorem digitsValue_cons (c : Char) (cs : List Char) :
    digitsValue (c :: cs) = (c.toNat - 48) * 10 ^ cs.length + digitsValue cs := by
  rw [← List.singleton_append, Literal.digitsValue_append, digitsValue_singleton]

theorem digitsValue_mod_ten (cs : List Char) (c : Char) (digit : c.isDigit = true) :
    digitsValue (cs ++ [c]) % 10 = c.toNat - 48 := by
  obtain ⟨low, high⟩ := digit_bounds digit
  rw [Literal.digitsValue_append, digitsValue_singleton, List.length_singleton, Nat.pow_one]
  omega

theorem one_le_of_ne_zero (digit : c.isDigit = true) (some_c : c ≠ '0') : 1 ≤ c.toNat - 48 := by
  obtain ⟨low, -⟩ := digit_bounds digit
  by_contra none
  have zero : c.toNat = '0'.toNat := by
    change c.toNat = 48
    omega
  exact some_c (Char.toNat_inj.mp zero)

namespace Digital

theorem of_cons (digital : Digital (c :: cs)) : c.isDigit = true ∧ Digital cs :=
  List.forall_mem_cons.mp digital

theorem filter_point (digital : Digital cs) : cs.filter (· ≠ '.') = cs := by
  refine List.filter_eq_self.mpr fun c listed => decide_eq_true ?_
  rintro rfl
  cases digital _ listed

theorem value_lt (digital : Digital cs) : digitsValue cs < 10 ^ cs.length := by
  induction cs with
  | nil => exact Nat.one_pos
  | cons c cs ih =>
      obtain ⟨digit, rest⟩ := digital.of_cons
      obtain ⟨-, high⟩ := digit_bounds digit
      have below := ih rest
      have most : (c.toNat - 48) * 10 ^ cs.length ≤ 9 * 10 ^ cs.length := Nat.mul_le_mul_right _ (by omega)
      rw [digitsValue_cons, List.length_cons, Nat.pow_succ]
      omega

/-- Digits of one length are told by their value. -/
theorem eq_of_value (left : Digital cs) (right : Digital rest) (length : cs.length = rest.length)
    (value : digitsValue cs = digitsValue rest) : cs = rest := by
  induction cs generalizing rest with
  | nil => exact (List.eq_nil_of_length_eq_zero length.symm).symm
  | cons c cs ih =>
      cases rest with
      | nil => cases length
      | cons d rest =>
          obtain ⟨digit_c, left⟩ := left.of_cons
          obtain ⟨digit_d, right⟩ := right.of_cons
          have lengths : cs.length = rest.length := Nat.succ_inj.mp length
          have power : 0 < 10 ^ rest.length := Nat.pow_pos (by decide)
          have below := left.value_lt
          have below' := right.value_lt
          rw [lengths] at below
          rw [digitsValue_cons, digitsValue_cons, lengths] at value
          have head := congrArg (· / 10 ^ rest.length) value
          rw [Nat.mul_comm, Nat.mul_add_div power, Nat.mul_comm (d.toNat - 48), Nat.mul_add_div power,
            Nat.div_eq_of_lt below, Nat.div_eq_of_lt below', Nat.add_zero, Nat.add_zero] at head
          rw [head, Nat.add_left_cancel_iff] at value
          obtain ⟨low_c, -⟩ := digit_bounds digit_c
          obtain ⟨low_d, -⟩ := digit_bounds digit_d
          have same : c = d := Char.toNat_inj.mp (by omega)
          rw [same, ih left right lengths value]

end Digital

theorem pow_le_digitsValue (digit : c.isDigit = true) (some_c : c ≠ '0') : 10 ^ cs.length ≤ digitsValue (c :: cs) := by
  rw [digitsValue_cons]
  exact (Nat.le_mul_of_pos_left _ (one_le_of_ne_zero digit some_c)).trans (Nat.le_add_right _ _)

/-- The digits of a number do not start with a zero. -/
theorem head_toDigits (some_n : n ≠ 0) : (Nat.toDigits 10 n).head? ≠ some '0' := by
  intro lead
  obtain ⟨cs, digits⟩ := List.head?_eq_some_iff.mp lead
  have value := digitsValue_toDigits n
  have digital := (digits ▸ Digital.toDigits n).of_cons.2
  rw [digits, digitsValue_cons, show '0'.toNat - 48 = 0 by rfl, Nat.zero_mul, Nat.zero_add] at value
  have below := value ▸ digital.value_lt
  cases cs with
  | nil => exact some_n (Nat.lt_one_iff.mp below)
  | cons c cs =>
      have short := (Nat.length_toDigits_le_iff (by decide) (Nat.succ_pos _)).mpr below
      rw [digits] at short
      exact absurd short (Nat.not_succ_le_self _)

/-- They end in a zero only if the number does. -/
theorem getLast_toDigits (ended : n % 10 ≠ 0) : (Nat.toDigits 10 n).getLast? ≠ some '0' := by
  intro last
  obtain ⟨cs, digits⟩ := List.getLast?_eq_some_iff.mp last
  have value := digitsValue_toDigits n
  rw [digits] at value
  exact ended (value ▸ digitsValue_mod_ten cs '0' rfl)

namespace Literal

variable {fraction fraction' mark mark' : List Char} {v w : ℚ} {m : ℕ} {e : ℤ}

/-! ## The grammar -/

/-- `0|[1-9]D*` and the number written. -/
inductive Whole : ℕ → List Char → Prop
  | zero : Whole 0 ['0']
  | digits {cs : List Char} (digits : Digits cs) (first : cs.head? ≠ some '0') : Whole (digitsValue cs) cs

/-- `(.D*[1-9])?` and the digits behind the point. -/
inductive Fraction : List Char → List Char → Prop
  | none : Fraction [] []
  | point {cs : List Char} (digits : Digits cs) (last : cs.getLast? ≠ some '0') : Fraction cs ('.' :: cs)

/-- Plain notation and what it denotes. -/
inductive Plain : ℚ → List Char → Prop
  | mk {n : ℕ} {whole fraction mark : List Char} (integral : Whole n whole) (rest : Fraction fraction mark) :
      Plain (n + digitsValue fraction / 10 ^ fraction.length) (whole ++ mark)

/-- Notation with one digit before the point, which is not zero, and an exponent with its sign. -/
inductive Scientific : ℚ → List Char → Prop
  | mk {c : Char} {e : ℤ} {fraction mark exponent : List Char} (lead : c.isDigit = true) (some_c : c ≠ '0')
      (rest : Fraction fraction mark) (power : Whole e.natAbs exponent) :
      Scientific ((digitsValue [c] + digitsValue fraction / 10 ^ fraction.length) * 10 ^ e)
        (c :: (mark ++ 'e' :: (if e < 0 then '-' else '+') :: exponent))

theorem Fraction.digital (rest : Fraction fraction mark) : Digital fraction := by
  cases rest with
  | none => exact .nil
  | point digits _ => exact digits.digital

/-- A point stands only before digits. -/
theorem Fraction.of_digital (digital : Digital cs) (last : cs.getLast? ≠ some '0') :
    Fraction cs (if cs.isEmpty then [] else '.' :: cs) := by
  cases cs with
  | nil => exact .none
  | cons c cs => exact .point ⟨List.cons_ne_nil _ _, digital⟩ last

theorem Whole.toDigits (n : ℕ) : Whole n (Nat.toDigits 10 n) := by
  by_cases none : n = 0
  · subst none
    exact .zero
  · have whole := Whole.digits ⟨Nat.toDigits_ne_nil, .toDigits n⟩ (head_toDigits none)
    rwa [digitsValue_toDigits] at whole

/-! ## Uniqueness -/

/-- Only an exponent has a mark. -/
theorem Plain.unmarked (plain : Plain v cs) : 'e' ∉ cs := by
  have digits {cs : List Char} (digital : Digital cs) : 'e' ∉ cs := fun listed => by cases digital _ listed
  obtain ⟨integral, rest⟩ := plain
  refine List.not_mem_append ?_ ?_
  · cases integral with
    | zero => decide
    | digits proper _ => exact digits proper.digital
  · cases rest with
    | none => exact List.not_mem_nil
    | point proper _ => exact List.not_mem_cons_of_ne_of_not_mem (by decide) (digits proper.digital)

theorem Scientific.marked (scientific : Scientific v cs) : 'e' ∈ cs := by
  obtain ⟨-, -, -, -⟩ := scientific
  exact List.mem_cons_of_mem _ (List.mem_append_right _ List.mem_cons_self)

/-- Digits with no zero before them tell their length by their value. -/
theorem Digits.value_bounds (digits : Digits cs) (first : cs.head? ≠ some '0') :
    10 ^ (cs.length - 1) ≤ digitsValue cs ∧ digitsValue cs < 10 ^ cs.length := by
  refine ⟨?_, digits.digital.value_lt⟩
  obtain ⟨c, cs, rfl, digit⟩ := digits.exists_cons
  exact pow_le_digitsValue digit fun zero => first (zero ▸ rfl)

theorem Digits.unique (left : Digits cs) (right : Digits rest) (first : cs.head? ≠ some '0')
    (first' : rest.head? ≠ some '0') (same : digitsValue cs = digitsValue rest) : cs = rest := by
  obtain ⟨low, high⟩ := left.value_bounds first
  obtain ⟨low', high'⟩ := right.value_bounds first'
  have less := (Nat.pow_lt_pow_iff_right (by decide)).mp (low.trans_lt (same ▸ high'))
  have more := (Nat.pow_lt_pow_iff_right (by decide)).mp (low'.trans_lt (same ▸ high))
  have length := List.length_pos_of_ne_nil left.some_cs
  have length' := List.length_pos_of_ne_nil right.some_cs
  exact left.digital.eq_of_value right.digital (by omega) same

theorem Whole.unique (left : Whole m cs) (right : Whole n rest) (same : m = n) : cs = rest := by
  have positive {cs : List Char} (digits : Digits cs) (first : cs.head? ≠ some '0') : digitsValue cs ≠ 0 :=
    ((Nat.pow_pos (by decide)).trans_le (digits.value_bounds first).1).ne'
  cases left with
  | zero =>
      cases right with
      | zero => rfl
      | digits digits first => exact absurd same.symm (positive digits first)
  | digits digits first =>
      cases right with
      | zero => exact absurd same (positive digits first)
      | digits digits' first' => exact digits.unique digits' first first' same

theorem Fraction.lt_one (rest : Fraction fraction mark) :
    (0 : ℚ) ≤ digitsValue fraction / 10 ^ fraction.length ∧
      (digitsValue fraction / 10 ^ fraction.length : ℚ) < 1 := by
  have below := rest.digital.value_lt
  refine ⟨by positivity, ?_⟩
  rw [div_lt_one (by positivity)]
  exact_mod_cast below

/-- A fraction with more digits does not end in zero, and so is another. -/
theorem Fraction.length_le (right : Fraction fraction' mark')
    (same : (digitsValue fraction / 10 ^ fraction.length : ℚ) = digitsValue fraction' / 10 ^ fraction'.length) :
    fraction'.length ≤ fraction.length := by
  by_contra longer
  obtain ⟨j, length⟩ := Nat.exists_eq_add_of_lt (Nat.lt_of_not_le longer)
  have scaled : digitsValue fraction * 10 ^ (j + 1) = digitsValue fraction' := by
    rw [length, add_assoc, pow_add] at same
    field_simp at same
    exact_mod_cast same
  cases right with
  | none => exact absurd length (by rw [List.length_nil]; omega)
  | point digits last =>
      obtain ⟨cs, c, rfl⟩ := (List.eq_nil_or_concat' _).resolve_left digits.some_cs
      have digit := digits.digital c (List.mem_append_right cs List.mem_cons_self)
      have some_c : c ≠ '0' := by
        rintro rfl
        exact last List.getLast?_concat
      have ended := digitsValue_mod_ten cs c digit
      have positive := one_le_of_ne_zero digit some_c
      rw [← scaled, Nat.pow_succ, ← Nat.mul_assoc, Nat.mul_mod_left] at ended
      omega

theorem Fraction.unique (left : Fraction fraction mark) (right : Fraction fraction' mark')
    (same : (digitsValue fraction / 10 ^ fraction.length : ℚ) = digitsValue fraction' / 10 ^ fraction'.length) :
    mark = mark' := by
  have length := (left.length_le same.symm).antisymm (right.length_le same)
  have value : digitsValue fraction = digitsValue fraction' := by
    rw [length, div_left_inj' (by positivity)] at same
    exact_mod_cast same
  have equal := left.digital.eq_of_value right.digital length value
  cases left with
  | none =>
      cases right with
      | none => rfl
      | point digits _ => exact absurd equal.symm digits.some_cs
  | point digits _ =>
      cases right with
      | none => exact absurd equal digits.some_cs
      | point _ _ => rw [equal]

/-- A whole number and a fraction of one are told by their sum. -/
theorem parts_unique (left : Fraction fraction mark) (right : Fraction fraction' mark')
    (same : (m + digitsValue fraction / 10 ^ fraction.length : ℚ) =
      n + digitsValue fraction' / 10 ^ fraction'.length) : m = n ∧ mark = mark' := by
  obtain ⟨low, high⟩ := left.lt_one
  obtain ⟨low', high'⟩ := right.lt_one
  have above : (m : ℚ) < (n + 1 : ℕ) := by
    push_cast
    linarith
  have below : (n : ℚ) < (m + 1 : ℕ) := by
    push_cast
    linarith
  obtain rfl : m = n := by
    have less := Nat.cast_lt.mp above
    have more := Nat.cast_lt.mp below
    omega
  exact ⟨rfl, left.unique right (add_left_cancel same)⟩

/-- A value has at most one text in plain notation. -/
theorem Plain.unique (left : Plain v cs) (right : Plain w rest) (same : v = w) : cs = rest := by
  obtain ⟨integral, fraction⟩ := left
  obtain ⟨integral', fraction'⟩ := right
  obtain ⟨whole, marks⟩ := parts_unique fraction fraction' same
  rw [integral.unique integral' whole, marks]

/-- The exponent is the decimal logarithm. -/
theorem log_scientific (lead : c.isDigit = true) (some_c : c ≠ '0') (rest : Fraction fraction mark) :
    Int.log 10 ((digitsValue [c] + digitsValue fraction / 10 ^ fraction.length) * 10 ^ e : ℚ) = e := by
  obtain ⟨low, high⟩ := rest.lt_one
  have above : (1 : ℚ) ≤ digitsValue [c] := by
    rw [digitsValue_singleton]
    exact_mod_cast one_le_of_ne_zero lead some_c
  have below : (digitsValue [c] : ℚ) ≤ 9 := by
    have most := (digit_bounds lead).2
    rw [digitsValue_singleton]
    exact_mod_cast (by omega : c.toNat - 48 ≤ 9)
  have power : (0 : ℚ) < 10 ^ e := zpow_pos (by norm_num) e
  refine log_eq_of_powers (by norm_num) ?_ ?_
  · rw [Nat.cast_ofNat]
    exact le_mul_of_one_le_left power.le (by linarith)
  · rw [Nat.cast_ofNat, zpow_add_one₀ (by norm_num), mul_comm (10 ^ e : ℚ)]
    exact mul_lt_mul_of_pos_right (by linarith) power

/-- A value has at most one text with an exponent. -/
theorem Scientific.unique (left : Scientific v cs) (right : Scientific w rest) (same : v = w) : cs = rest := by
  obtain @⟨c, e, fraction, _, _, lead, some_c, left, power⟩ := left
  obtain @⟨c', e', fraction', _, _, lead', some_c', right, power'⟩ := right
  have exponent := congrArg (Int.log 10) same
  rw [log_scientific lead some_c left, log_scientific lead' some_c' right] at exponent
  subst exponent
  obtain ⟨whole, marks⟩ := parts_unique left right (mul_right_cancel₀ (zpow_ne_zero e (by norm_num)) same)
  rw [digitsValue_singleton, digitsValue_singleton] at whole
  have low := digit_bounds lead
  have low' := digit_bounds lead'
  have leads : c = c' := Char.toNat_inj.mp (by omega)
  rw [leads, marks, power.unique power' rfl]

end Literal

namespace NumberLayout

open Literal

/-! ## Layouts -/

variable {digits : List Char}

theorem value_cut {i : ℕ} (digits : List Char) (within : i ≤ digits.length) (e : ℤ) :
    (digitsValue digits * 10 ^ (e + i - digits.length) : ℚ) =
      (digitsValue (digits.take i) + digitsValue (digits.drop i) / 10 ^ (digits.drop i).length) * 10 ^ e := by
  have value := value_digits false (digits.take i) (digits.drop i) e
  rw [← value, Numeral.value, List.take_append_drop, List.length_drop, Nat.cast_sub within]
  congr 2
  change _ = e - ((digits.length : ℤ) - i)
  omega

/-- But for its point, plain notation has as many zeros as it takes to reach the first place or the last. -/
theorem positional_filter (proper : Digits digits) (n : ℤ) {l : NumberLayout} (bare : l.wholeSuffix = []) :
    (l.positional digits n).filter (· ≠ '.') =
      List.replicate (1 - n).toNat '0' ++ digits ++ List.replicate (n - digits.length).toNat '0' := by
  have some_digits := List.length_pos_of_ne_nil proper.some_cs
  unfold positional
  dsimp only
  by_cases whole : (digits.length : ℤ) ≤ n
  · have padded := (proper.digital.append (.zeros (n - digits.length).toNat)).filter_point
    rw [if_pos whole, bare, List.append_nil, padded, Int.toNat_of_nonpos (by omega : 1 - n ≤ 0)]
    rfl
  · rw [if_neg whole, Int.toNat_of_nonpos (by omega : n - digits.length ≤ 0), List.replicate_zero, List.append_nil]
    by_cases inside : 0 < n
    · rw [if_pos inside, Int.toNat_of_nonpos (by omega : 1 - n ≤ 0), List.filter_append,
        List.filter_cons_of_neg (by decide), (proper.digital.take n.toNat).filter_point,
        (proper.digital.drop n.toNat).filter_point, List.take_append_drop]
      rfl
    · have padded := ((Digital.zeros (-n).toNat).append proper.digital).filter_point
      rw [if_neg inside, List.append_assoc, List.filter_append, padded,
        show (1 - n).toNat = (-n).toNat + 1 by omega]
      rfl

variable (proper : Digits digits) (first : digits.head? ≠ some '0') (last : digits.getLast? ≠ some '0')

include proper first last

/-- Digits that neither start nor end in a zero have a canonical text in plain notation. -/
theorem positional_plain (n : ℤ) {l : NumberLayout} (bare : l.wholeSuffix = []) :
    Plain (digitsValue digits * 10 ^ (n - digits.length)) (l.positional digits n) := by
  unfold positional
  dsimp only
  by_cases whole : (digits.length : ℤ) ≤ n
  · obtain ⟨zeros, rfl⟩ := Int.le.dest whole
    rw [if_pos whole, bare, add_sub_cancel_left, Int.toNat_natCast, zpow_natCast]
    have padded : Digits (digits ++ List.replicate zeros '0') :=
      ⟨by simp [proper.some_cs], proper.digital.append (.zeros zeros)⟩
    have plain := Plain.mk (.digits padded (by rwa [List.head?_append_of_ne_nil _ proper.some_cs])) .none
    rw [digitsValue_append_zeros, show digitsValue [] = 0 from rfl] at plain
    simpa using plain
  · rw [if_neg whole]
    by_cases inside : 0 < n
    · obtain ⟨i, rfl⟩ := Int.eq_ofNat_of_zero_le inside.le
      have within : i ≤ digits.length := by omega
      have front : Digits (digits.take i) := ⟨by simp [proper.some_cs]; omega, proper.digital.take i⟩
      have back : Digits (digits.drop i) := ⟨by simp; omega, proper.digital.drop i⟩
      rw [if_pos inside, Int.toNat_natCast, ← zero_add (i : ℤ), value_cut digits within 0, zpow_zero, mul_one]
      refine .mk (.digits front ?_) (.point back ?_)
      · rwa [List.head?_take, if_neg (by omega)]
      · rwa [List.getLast?_drop, if_neg (by omega)]
    · obtain ⟨zeros, same⟩ := Int.eq_ofNat_of_zero_le (show 0 ≤ -n by omega)
      have negated : n = -(zeros : ℤ) := by omega
      have back : Digits (List.replicate zeros '0' ++ digits) :=
        ⟨by simp [proper.some_cs], (Digital.zeros zeros).append proper.digital⟩
      have plain := Plain.mk .zero (.point back (by rwa [List.getLast?_append_of_ne_nil _ proper.some_cs]))
      rw [digitsValue_zeros_append, List.length_append, List.length_replicate, Nat.cast_zero, zero_add,
        div_eq_mul_inv, ← zpow_natCast, ← zpow_neg] at plain
      rw [if_neg inside, same, Int.toNat_natCast, negated, show -(zeros : ℤ) - digits.length =
        -((zeros + digits.length : ℕ) : ℤ) by omega]
      exact plain

/-- They have one with an exponent. -/
theorem scientific_canonical (n : ℤ) :
    Scientific (digitsValue digits * 10 ^ (n - digits.length)) (scientific digits n) := by
  have value := value_cut (i := 1) digits (List.length_pos_of_ne_nil proper.some_cs) (n - 1)
  rw [Nat.cast_one, sub_add_cancel] at value
  obtain ⟨c, rest, rfl, digit⟩ := proper.exists_cons
  have fraction : Fraction rest (if rest.isEmpty then [] else '.' :: rest) := by
    refine .of_digital proper.digital.of_cons.2 ?_
    cases rest with
    | nil => exact nofun
    | cons d rest => rwa [List.getLast?_cons_cons] at last
  rw [value]
  exact .mk digit (fun zero => first (zero ▸ rfl)) fraction (.toDigits _)

end NumberLayout

end GuestHost
