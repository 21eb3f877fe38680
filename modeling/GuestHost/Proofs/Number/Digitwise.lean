import GuestHost.Proofs.Number.Integers

/-! What comes of digits that are appended one after the other, with a rounding after each of them.
Past 53 bits a further digit is less than half a step, so that it is lost; the number is still the
nearest one unless the digits that are kept end half way between two numbers. -/

namespace GuestHost

namespace Binary64

/-! ## Digits that are kept -/

/-- How many of the last digits of a natural are lost when its digits of some bits are appended one
after the other: those that come once there are more than 53 bits. -/
def dropped (bits n : ℕ) : ℕ := (n.log2 - 53) / bits

/-- A natural with zeros for the digits that are lost. -/
def kept (bits n : ℕ) : ℕ := n / 2 ^ (bits * dropped bits n) * 2 ^ (bits * dropped bits n)

/-- A natural is half way between two numbers, of which the lower one is even. -/
def Halfway (n : ℕ) : Prop := ∃ j s, 2 ^ 51 ≤ j ∧ j < 2 ^ 52 ∧ n = (4 * j + 1) * 2 ^ s

variable {bits n d e m : ℕ} {q : ℤ}

theorem log2_append (some_n : n ≠ 0) (digit : d < 2 ^ bits) : (n * 2 ^ bits + d).log2 = n.log2 + bits := by
  obtain ⟨low, high⟩ := (Nat.log2_eq_iff some_n).mp rfl
  have power : 0 < 2 ^ bits := Nat.two_pow_pos bits
  have some_product := Nat.mul_pos (Nat.pos_of_ne_zero some_n) power
  have below := Nat.mul_le_mul_right (2 ^ bits) low
  have above := Nat.mul_le_mul_right (2 ^ bits) (Nat.succ_le_of_lt high)
  rw [Nat.succ_mul] at above
  rw [Nat.log2_eq_iff (by omega), show n.log2 + bits + 1 = n.log2 + 1 + bits by omega, Nat.pow_add, Nat.pow_add]
  omega

theorem kept_eq_self (some_bits : 0 < bits) (small : n < 2 ^ (53 + bits)) : kept bits n = n := by
  have none : dropped bits n = 0 := by
    rw [dropped, Nat.div_eq_zero_iff]
    by_cases zero : n = 0
    · rw [zero]
      exact .inr some_bits
    · have size := (Nat.log2_lt zero).mpr small
      omega
  rw [kept, none, Nat.mul_zero, Nat.pow_zero, Nat.div_one, Nat.mul_one]

theorem dropped_le (n : ℕ) : bits * dropped bits n ≤ n.log2 - 53 := Nat.mul_div_le _ _

theorem two_pow_le_log2 (large : 2 ^ 53 ≤ n) : 53 ≤ n.log2 :=
  (Nat.le_log2 (Nat.ne_of_gt (Nat.lt_of_lt_of_le (by decide) large))).mpr large

theorem kept_append (some_bits : 0 < bits) (large : 2 ^ 53 ≤ n) (digit : d < 2 ^ bits) :
    kept bits (n * 2 ^ bits + d) = kept bits n * 2 ^ bits := by
  have size := two_pow_le_log2 large
  have one : dropped bits (n * 2 ^ bits + d) = dropped bits n + 1 := by
    rw [dropped, dropped, log2_append (by omega) digit, show n.log2 + bits - 53 = n.log2 - 53 + bits by omega,
      Nat.add_div_right _ some_bits]
  have quotient : (n * 2 ^ bits + d) / 2 ^ bits = n := by
    rw [Nat.mul_comm, Nat.mul_add_div (Nat.two_pow_pos bits), Nat.div_eq_of_lt digit, Nat.add_zero]
  rw [kept, kept, one, Nat.mul_succ, Nat.pow_add, Nat.mul_comm (2 ^ (bits * _)), ← Nat.div_div_eq_div_mul, quotient,
    Nat.mul_assoc, Nat.mul_comm (2 ^ bits)]

/-- What is kept has all the bits of the natural. -/
theorem log2_kept (bits : ℕ) (large : 2 ^ 53 ≤ n) : (kept bits n).log2 = n.log2 := by
  have size := two_pow_le_log2 large
  have some_n : n ≠ 0 := by omega
  obtain ⟨low, high⟩ := (Nat.log2_eq_iff some_n).mp rfl
  have below : kept bits n ≤ n := Nat.div_mul_le_self _ _
  have above : 2 ^ n.log2 ≤ kept bits n := by
    have split : 2 ^ n.log2 = 2 ^ (n.log2 - bits * dropped bits n) * 2 ^ (bits * dropped bits n) := by
      rw [← Nat.pow_add, Nat.sub_add_cancel ((dropped_le n).trans (Nat.sub_le _ _))]
    rw [split] at low ⊢
    exact Nat.mul_le_mul_right _ ((Nat.le_div_iff_mul_le (Nat.two_pow_pos _)).mpr low)
  have some_kept : kept bits n ≠ 0 := by
    have power := Nat.two_pow_pos n.log2
    omega
  exact (Nat.log2_eq_iff some_kept).mpr ⟨above, by omega⟩

theorem kept_large (bits : ℕ) (large : 2 ^ 53 ≤ n) : 2 ^ 53 ≤ kept bits n := by
  have size := two_pow_le_log2 large
  have same := log2_kept bits large
  have some_kept : kept bits n ≠ 0 := by
    intro none
    rw [none, Nat.log2_zero] at same
    omega
  exact (Nat.le_log2 some_kept).mp (by omega)

/-! ## Naturals and their units -/

/-- A natural has 53 bits before its unit. -/
theorem unit_bounds (some_n : n ≠ 0) :
    (2 : ℚ) ^ 52 ≤ n / 2 ^ ((n.log2 : ℤ) - 52) ∧ (n : ℚ) / 2 ^ ((n.log2 : ℤ) - 52) < 2 ^ 53 := by
  obtain ⟨low, high⟩ := (Nat.log2_eq_iff some_n).mp rfl
  have unit : (0 : ℚ) < 2 ^ ((n.log2 : ℤ) - 52) := zpow_pos (by norm_num) _
  have power (k : ℕ) : (2 : ℚ) ^ (52 + k) * 2 ^ ((n.log2 : ℤ) - 52) = 2 ^ (n.log2 + k) := by
    rw [← zpow_natCast, ← zpow_natCast, ← zpow_add₀ (by norm_num)]
    congr 1
    push_cast
    ring
  rw [le_div_iff₀ unit, div_lt_iff₀ unit]
  refine ⟨(power 0).le.trans (by exact_mod_cast low), lt_of_lt_of_eq ?_ (power 1).symm⟩
  exact_mod_cast high

theorem ofRatio_natural (negative : Bool) (least : -1074 ≤ q) (low : (2 : ℚ) ^ 52 ≤ n / 2 ^ q)
    (high : (n : ℚ) / 2 ^ q < 2 ^ 53) (near : Near m (n / 2 ^ q)) :
    ofRatio negative n 1 = ofMagnitude negative ((q + 1074).toNat * leadingBit + m) := by
  have unit : (0 : ℚ) < 2 ^ q := zpow_pos (by norm_num) q
  have power (k : ℕ) : (2 : ℚ) ^ (q + k) = 2 ^ k * 2 ^ q := by
    rw [zpow_add₀ (by norm_num), zpow_natCast, mul_comm]
  have positive : (0 : ℚ) < n := (mul_pos (by norm_num) unit).trans_le ((le_div_iff₀ unit).mp low)
  have whole : ((n : ℚ) / (1 : ℕ)) = n := by rw [Nat.cast_one, div_one]
  have log : Int.log 2 (n : ℚ) = q + (52 : ℕ) := by
    refine log_eq ?_ ?_
    · rw [power]
      exact (le_div_iff₀ unit).mp low
    · rw [add_assoc, show ((52 : ℕ) : ℤ) + 1 = (53 : ℕ) by rfl, power]
      exact (div_lt_iff₀ unit).mp high
  refine ofRatio_of_near negative (by exact_mod_cast positive) Nat.one_pos ?_ (by rwa [whole])
  rw [whole, log]
  omega

/-- Naturals of 53 bits are numbers. -/
theorem ofRatio_exact (small : n < 2 ^ 53) :
    (ofRatio false n 1).isFinite = true ∧ (ofRatio false n 1).size = n := by
  by_cases none : n = 0
  · subst none
    exact ⟨by decide, size_zero false⟩
  · have size := (Nat.log2_lt none).mpr small
    obtain ⟨low, high⟩ := unit_bounds none
    generalize unit : (n.log2 : ℤ) - 52 = q at low high
    obtain ⟨e, rfl⟩ : ∃ e : ℕ, q = -e := ⟨(-q).toNat, by omega⟩
    have scaled : (n : ℚ) / 2 ^ (-(e : ℤ)) = (n * 2 ^ e : ℕ) := by
      rw [zpow_neg, div_inv_eq_mul, zpow_natCast]
      push_cast
      rfl
    rw [scaled] at low high
    have low' : 2 ^ 52 ≤ n * 2 ^ e := by exact_mod_cast low
    have high' : n * 2 ^ e < 2 ^ 53 := by exact_mod_cast high
    have near : Near (n * 2 ^ e) ((n : ℚ) / 2 ^ (-(e : ℤ))) := scaled ▸ near_self _
    have least : -1074 ≤ -(e : ℤ) := by omega
    have within : (-(e : ℤ) + 1074).toNat * leadingBit + n * 2 ^ e < lastMagnitude := by
      unfold lastMagnitude leadingBit
      omega
    rw [ofRatio_natural false least (scaled ▸ low) (scaled ▸ high) near]
    refine ⟨?_, ?_⟩
    · rw [isFinite_iff, magnitude_ofMagnitude]
      omega
    · rw [size_ofMagnitude false least high'.le (.inr low') within.le, ← scaled]
      exact div_mul_cancel₀ _ (zpow_pos (by norm_num) _).ne'

/-- The unit of a natural of 53 bits or more is one too. -/
theorem unit_of_log2 (log : n.log2 = e + 52) : (2 : ℚ) ^ 52 ≤ n / 2 ^ e ∧ (n : ℚ) / 2 ^ e < 2 ^ 53 := by
  have some_n : n ≠ 0 := by
    rintro rfl
    rw [Nat.log2_zero] at log
    omega
  have bounds := unit_bounds some_n
  rwa [show (n.log2 : ℤ) - 52 = e by omega, zpow_natCast] at bounds

theorem ofRatio_unit (low : (2 : ℚ) ^ 52 ≤ n / 2 ^ e) (high : (n : ℚ) / 2 ^ e < 2 ^ 53)
    (near : Near m (n / 2 ^ e)) : ofRatio false n 1 = ofMagnitude false ((e + 1074) * leadingBit + m) := by
  rw [← zpow_natCast (2 : ℚ) e] at low high near
  rw [ofRatio_natural false (by omega) low high near, show ((e : ℤ) + 1074).toNat = e + 1074 by omega]

/-- A factor that is a power of two only changes the unit. -/
theorem shifted_unit (n e bits : ℕ) : ((n * 2 ^ bits : ℕ) : ℚ) / 2 ^ (e + bits) = n / 2 ^ e := by
  rw [pow_add, Nat.cast_mul, Nat.cast_pow, Nat.cast_ofNat, mul_div_mul_right _ _ (by positivity)]

/-- What is added to units is lost if it is less than a half of one. -/
theorem ofRatio_add_of_lt (least : 2 ^ 52 ≤ m) (less : m < 2 ^ 53) (small : 2 * d < 2 ^ e) :
    ofRatio false (m * 2 ^ e + d) 1 = ofMagnitude false ((e + 1074) * leadingBit + m) := by
  have low : (2 : ℚ) ^ 52 ≤ m := by exact_mod_cast least
  have high : (m : ℚ) + 1 ≤ 2 ^ 53 := by exact_mod_cast less
  have sum : ((m * 2 ^ e + d : ℕ) : ℚ) / 2 ^ e = m + d / 2 ^ e := by
    rw [Nat.cast_add, Nat.cast_mul, Nat.cast_pow, Nat.cast_ofNat, add_div, mul_div_cancel_right₀ _ (by positivity)]
  have nonneg : (0 : ℚ) ≤ d / 2 ^ e := by positivity
  have half : (d : ℚ) / 2 ^ e < 1 / 2 := by
    have below : (2 * d : ℚ) < 2 ^ e := by exact_mod_cast small
    rw [div_lt_iff₀ (by positivity)]
    linarith
  refine ofRatio_unit ?_ ?_ ?_
  · rw [sum]
    linarith
  · rw [sum]
    linarith
  · rw [sum]
    exact ⟨by linarith, by linarith, fun _ => ⟨by linarith, by linarith⟩⟩

/-- So it is if the units carry into the next scale, where one has twice the size. -/
theorem ofRatio_add (least : 2 ^ 52 ≤ m) (most : m ≤ 2 ^ 53) (small : 2 * d < 2 ^ e) :
    ofRatio false (m * 2 ^ e + d) 1 = ofMagnitude false ((e + 1074) * leadingBit + m) := by
  rcases most.lt_or_eq with less | rfl
  · exact ofRatio_add_of_lt least less small
  · have doubled : 2 * d < 2 ^ (e + 1) := by
      rw [Nat.pow_succ]
      omega
    have carried := ofRatio_add_of_lt (m := 2 ^ 52) le_rfl (by decide) doubled
    have same : 2 ^ 53 * 2 ^ e + d = 2 ^ 52 * 2 ^ (e + 1) + d := by ring
    have fields : (e + 1074) * leadingBit + 2 ^ 53 = (e + 1 + 1074) * leadingBit + 2 ^ 52 := by
      unfold leadingBit
      omega
    rw [same, carried, fields]

/-! ## One digit -/

/-- A digit is appended exactly to what 53 bits hold, and then there is one rounding. -/
theorem appendDigit_small (small : n < 2 ^ 53) (radix d : ℕ) :
    (ofRatio false n 1).appendDigit radix d = ofRatio false (n * radix + d) 1 := by
  obtain ⟨finite, whole⟩ := ofRatio_exact small
  have bounded : ¬ (ofRatio false n 1).isInfinite = true := by
    rw [isInfinite_iff]
    rw [isFinite_iff] at finite
    omega
  rw [appendDigit, if_neg bounded, wholePart_eq whole]

theorem wholePart_units (least : 2 ^ 52 ≤ m) (most : m ≤ 2 ^ 53)
    (within : (e + 1074) * leadingBit + m ≤ lastMagnitude) :
    (ofMagnitude false ((e + 1074) * leadingBit + m)).wholePart = m * 2 ^ e := by
  have fields : ((e : ℤ) + 1074).toNat = e + 1074 := by omega
  have whole := size_ofMagnitude (q := e) false (by omega) most (.inr least) (by rwa [fields])
  rw [fields, zpow_natCast] at whole
  apply wholePart_eq
  rw [whole, Nat.cast_mul, Nat.cast_pow, Nat.cast_ofNat]

/-- Past 53 bits a digit is less than half a unit, so that nothing but the radix counts. -/
theorem appendDigit_large (large : 2 ^ 53 ≤ n) (digit : d < 2 ^ bits) :
    (ofRatio false n 1).appendDigit (2 ^ bits) d = ofRatio false (n * 2 ^ bits) 1 := by
  have size := two_pow_le_log2 large
  obtain ⟨e, log⟩ := Nat.exists_eq_add_of_le' (show 52 ≤ n.log2 by omega)
  obtain ⟨low, high⟩ := unit_of_log2 log
  obtain ⟨m, near⟩ := exists_near ((by norm_num : (0 : ℚ) ≤ 2 ^ 52).trans low)
  have most := near.digits_le (q := e) (by rwa [zpow_natCast])
  have least := (near.normal_or_least (q := e) (.inr (by rwa [zpow_natCast]))).resolve_left (by omega)
  have product := shifted_unit n e bits
  rw [ofRatio_unit low high near,
    ofRatio_unit (e := e + bits) (m := m) (by rwa [product]) (by rwa [product]) (by rwa [product])]
  by_cases within : (e + 1074) * leadingBit + m < lastMagnitude
  · have bounded : ¬ (ofMagnitude false ((e + 1074) * leadingBit + m)).isInfinite = true := by
      rw [isInfinite_iff, magnitude_ofMagnitude]
      omega
    have less : 2 * d < 2 ^ (e + bits) := by
      have half : 2 ^ (1 + bits) ≤ 2 ^ (e + bits) := Nat.pow_le_pow_right (by decide) (by omega)
      rw [Nat.pow_add] at half
      omega
    rw [appendDigit, if_neg bounded, wholePart_units least most within.le, Nat.mul_assoc, ← Nat.pow_add,
      ofRatio_add least most less]
  · have last := not_lt.mp within
    have further : (e + 1074) * leadingBit + m ≤ (e + bits + 1074) * leadingBit + m := by
      gcongr
      omega
    rw [ofMagnitude_of_le last, ofMagnitude_of_le (last.trans further)]
    rfl

/-! ## All digits -/

/-- Of digits that are appended one after the other, those that are kept are rounded once. -/
theorem foldl_appendDigit {ds : List ℕ} (some_bits : 0 < bits) (digits : ∀ d ∈ ds, d < 2 ^ bits) :
    ds.foldl (appendDigit (2 ^ bits)) (zero false) =
      ofRatio false (kept bits (Nat.ofDigits (2 ^ bits) ds.reverse)) 1 := by
  induction ds using List.reverseRecOn with
  | nil =>
      rw [List.reverse_nil, Nat.ofDigits_nil, kept, Nat.zero_div, Nat.zero_mul]
      rfl
  | append_singleton ds d ih =>
      have digit : d < 2 ^ bits := digits d (List.mem_append_right _ List.mem_cons_self)
      have value : Nat.ofDigits (2 ^ bits) (ds ++ [d]).reverse =
          Nat.ofDigits (2 ^ bits) ds.reverse * 2 ^ bits + d := by
        rw [List.reverse_append, List.reverse_singleton, List.singleton_append, Nat.ofDigits_cons, Nat.add_comm,
          Nat.mul_comm]
      rw [List.foldl_append, ih fun d listed => digits d (List.mem_append_left _ listed), List.foldl_cons,
        List.foldl_nil, value]
      generalize Nat.ofDigits (2 ^ bits) ds.reverse = n
      rcases Nat.lt_or_ge n (2 ^ 53) with small | large
      · have next : n * 2 ^ bits + d < 2 ^ (53 + bits) := by
          have bound := Nat.mul_le_mul_right (2 ^ bits) (Nat.succ_le_of_lt small)
          rw [Nat.succ_mul] at bound
          rw [Nat.pow_add]
          omega
        have fewer : n < 2 ^ (53 + bits) :=
          small.trans_le (Nat.pow_le_pow_right (by decide) (Nat.le_add_right _ _))
        rw [kept_eq_self some_bits fewer, kept_eq_self some_bits next, appendDigit_small small]
      · rw [kept_append some_bits large digit, appendDigit_large (kept_large bits large) digit]

/-! ## Half way between two numbers -/

/-- Nearness in natural halves of the unit. -/
theorem near_iff : Near m (n / 2 ^ (e + 1)) ↔ 2 * m * 2 ^ e ≤ n + 2 ^ e ∧ n ≤ (2 * m + 1) * 2 ^ e ∧
    (m % 2 = 1 → 2 * m * 2 ^ e < n + 2 ^ e ∧ n < (2 * m + 1) * 2 ^ e) := by
  have unit : (0 : ℚ) < 2 ^ (e + 1) := by positivity
  have low : (m : ℚ) - 1 / 2 ≤ n / 2 ^ (e + 1) ↔ 2 * m * 2 ^ e ≤ n + 2 ^ e := by
    rw [le_div_iff₀ unit, pow_succ, ← @Nat.cast_le ℚ]
    push_cast
    constructor <;> intro bound <;> linarith
  have high : (n : ℚ) / 2 ^ (e + 1) ≤ m + 1 / 2 ↔ n ≤ (2 * m + 1) * 2 ^ e := by
    rw [div_le_iff₀ unit, pow_succ, ← @Nat.cast_le ℚ]
    push_cast
    constructor <;> intro bound <;> linarith
  have above : (m : ℚ) - 1 / 2 < n / 2 ^ (e + 1) ↔ 2 * m * 2 ^ e < n + 2 ^ e := by
    rw [lt_div_iff₀ unit, pow_succ, ← @Nat.cast_lt ℚ]
    push_cast
    constructor <;> intro bound <;> linarith
  have below : (n : ℚ) / 2 ^ (e + 1) < m + 1 / 2 ↔ n < (2 * m + 1) * 2 ^ e := by
    rw [div_lt_iff₀ unit, pow_succ, ← @Nat.cast_lt ℚ]
    push_cast
    constructor <;> intro bound <;> linarith
  rw [← low, ← high, ← above, ← below]
  exact ⟨fun ⟨low, high, odd⟩ => ⟨low, high, odd⟩, fun ⟨low, high, odd⟩ => ⟨low, high, odd⟩⟩

variable {w r p u : ℕ}

/-- What is added to a multiple of what it is less than goes past a half only from there. -/
theorem near_add_iff (divides : r ∣ 2 ^ e) (less : u < r) (near : Near m ((p * r : ℕ) / 2 ^ (e + 1))) :
    Near m ((p * r + u : ℕ) / 2 ^ (e + 1)) ↔ u = 0 ∨ p * r ≠ (2 * m + 1) * 2 ^ e := by
  obtain ⟨c, half⟩ := divides
  rw [near_iff] at near ⊢
  have multiple : (2 * m + 1) * 2 ^ e = (2 * m + 1) * c * r := by rw [half, Nat.mul_comm r, Nat.mul_assoc]
  have step : p * r < (2 * m + 1) * 2 ^ e → p * r + u < (2 * m + 1) * 2 ^ e := by
    intro below
    rw [multiple] at below ⊢
    have next := Nat.mul_le_mul_right r (Nat.succ_le_of_lt (Nat.lt_of_mul_lt_mul_right below))
    rw [Nat.succ_mul] at next
    omega
  obtain ⟨low, high, odd⟩ := near
  constructor
  · rintro ⟨-, below, -⟩
    omega
  · rintro (rfl | other)
    · exact ⟨low, high, odd⟩
    · have strict := step (by omega)
      exact ⟨by omega, by omega, fun parity => ⟨by have := (odd parity).1; omega, strict⟩⟩

/-- Half way above a natural is near to it only if it is even. -/
theorem even_of_half (near : Near m (w / 2 ^ (e + 1))) (half : w = (2 * m + 1) * 2 ^ e) : m % 2 = 0 := by
  obtain ⟨-, -, odd⟩ := near_iff.mp near
  by_contra other
  exact absurd half (odd (by omega)).2.ne

theorem log2_halfway {j : ℕ} (least : 2 ^ 51 ≤ j) (most : j < 2 ^ 52) (s : ℕ) :
    ((4 * j + 1) * 2 ^ s).log2 = s + 53 := by
  have positive := Nat.mul_pos (Nat.succ_pos (4 * j)) (Nat.two_pow_pos s)
  rw [Nat.log2_eq_iff positive.ne', show s + 53 + 1 = 54 + s by omega, Nat.add_comm s, Nat.pow_add, Nat.pow_add]
  constructor
  · gcongr
    omega
  · gcongr
    omega

/-- A natural is half way above an even one in its unit. -/
theorem halfway_iff (log : w.log2 = e + 53) (near : Near m (w / 2 ^ (e + 1))) :
    Halfway w ↔ w = (2 * m + 1) * 2 ^ e := by
  have some_w : w ≠ 0 := by
    rintro rfl
    rw [Nat.log2_zero] at log
    omega
  obtain ⟨low, high⟩ := (Nat.log2_eq_iff some_w).mp log
  have power := Nat.two_pow_pos e
  obtain ⟨above, below, odd⟩ := near_iff.mp near
  constructor
  · rintro ⟨j, s, least, most, rfl⟩
    have size := log2_halfway least most s
    obtain rfl : s = e := by omega
    have next : (4 * j + 1) * 2 ^ s + 2 ^ s = (4 * j + 2) * 2 ^ s := by ring
    rw [next] at above odd
    have fewer := Nat.le_of_mul_le_mul_right above power
    have more := Nat.le_of_mul_le_mul_right below power
    have even : m % 2 = 0 := by
      by_contra other
      have strict := Nat.lt_of_mul_lt_mul_right (odd (by omega)).1
      omega
    rw [show 4 * j + 1 = 2 * m + 1 by omega]
  · intro half
    obtain ⟨j, rfl⟩ := Nat.dvd_of_mod_eq_zero (even_of_half near half)
    rw [half, Nat.add_comm e, Nat.pow_add] at low
    rw [half, show e + 53 + 1 = 54 + e by omega, Nat.pow_add] at high
    have least := Nat.le_of_mul_le_mul_right low power
    have most := Nat.lt_of_mul_lt_mul_right high
    exact ⟨j, e, by omega, by omega, by rw [half]; ring⟩

theorem rounds_natural (n : ℕ) : Rounds n (ofRatio false n 1) := by
  have rounds := rounds_ofRatio false n Nat.one_pos
  rwa [Nat.cast_one, div_one] at rounds

section Unit

variable (low : (2 : ℚ) ^ 52 ≤ n / 2 ^ e) (high : (n : ℚ) / 2 ^ e < 2 ^ 53)

include low high

theorem finite_iff (near : Near m (n / 2 ^ e)) :
    (e + 1074) * leadingBit + m < lastMagnitude ↔ (n : ℚ) < overflow := by
  rw [← zpow_natCast (2 : ℚ) e] at low high near
  have bounded := near.bounded_iff (by omega) (.inr low) high
  rwa [show ((e : ℤ) + 1074).toNat = e + 1074 by omega] at bounded

/-- A finite number of units is what is rounded to if it is near. -/
theorem rounds_iff_near (bounded : (n : ℚ) < overflow) :
    Rounds n (ofMagnitude false ((e + 1074) * leadingBit + m)) ↔ Near m (n / 2 ^ e) := by
  refine ⟨fun rounds => ?_, fun near => ofRatio_unit low high near ▸ rounds_natural n⟩
  obtain ⟨k, near⟩ := exists_near ((by norm_num : (0 : ℚ) ≤ 2 ^ 52).trans low)
  have nearest := rounds_natural n
  rw [ofRatio_unit low high near] at nearest
  have within := (finite_iff low high near).mpr bounded
  have same := rounds.unique nearest ((isNegative_ofMagnitude _ _).trans (isNegative_ofMagnitude _ _).symm)
  have magnitude := congrArg magnitude same
  rw [magnitude_ofMagnitude, magnitude_ofMagnitude] at magnitude
  rwa [show m = k by omega]

/-- Past the last number nothing is half way. -/
theorem rounds_beyond (even : m % 2 = 0) (near : Near (m + 1) (n / 2 ^ e)) (beyond : overflow ≤ n) :
    Rounds n (ofMagnitude false ((e + 1074) * leadingBit + m)) := by
  have outside := (finite_iff low high near).not.mpr beyond.not_gt
  have last : lastMagnitude ≤ (e + 1074) * leadingBit + m := by
    unfold lastMagnitude leadingBit at *
    omega
  have rounds := rounds_natural n
  rwa [ofRatio_unit low high near, ofMagnitude_of_le (by omega), ← ofMagnitude_of_le last] at rounds

end Unit

/-- Above half way it is the next one that is near. -/
theorem near_succ (some_u : 0 < u) (less : u < 2 ^ e) :
    Near (m + 1) (((2 * m + 1) * 2 ^ e + u : ℕ) / 2 ^ (e + 1)) := by
  have first : 2 * (m + 1) * 2 ^ e = (2 * m + 1) * 2 ^ e + 2 ^ e := by ring
  have second : (2 * (m + 1) + 1) * 2 ^ e = (2 * m + 1) * 2 ^ e + 2 ^ e + 2 ^ e := by ring
  rw [near_iff]
  exact ⟨by omega, by omega, fun _ => ⟨by omega, by omega⟩⟩

/-- To round what remains when the last digits are lost is to round all, unless that is half way. -/
theorem rounds_lost_iff (divides : r ∣ 2 ^ e) (some_u : 0 < u) (less : u < r) (log_kept : (p * r).log2 = e + 53)
    (log : (p * r + u).log2 = e + 53) :
    Rounds (p * r + u : ℕ) (ofRatio false (p * r) 1) ↔ ¬ Halfway (p * r) ∨ overflow ≤ (p * r + u : ℕ) := by
  obtain ⟨low_kept, high_kept⟩ := unit_of_log2 (e := e + 1) (log_kept.trans (by omega))
  obtain ⟨low, high⟩ := unit_of_log2 (e := e + 1) (log.trans (by omega))
  obtain ⟨m, near⟩ := exists_near ((by norm_num : (0 : ℚ) ≤ 2 ^ 52).trans low_kept)
  have further := near_add_iff divides less near
  rw [or_iff_right some_u.ne'] at further
  rw [ofRatio_unit low_kept high_kept near, halfway_iff log_kept near]
  rcases lt_or_ge ((p * r + u : ℕ) : ℚ) overflow with bounded | beyond
  · rw [rounds_iff_near low high bounded, further, or_iff_left bounded.not_ge]
  · refine iff_of_true ?_ (.inr beyond)
    by_cases half : p * r = (2 * m + 1) * 2 ^ e
    · have next := near_succ (m := m) some_u (less.trans_le (Nat.le_of_dvd (Nat.two_pow_pos e) divides))
      rw [← half] at next
      exact rounds_beyond low high (even_of_half near half) next beyond
    · have rounds := rounds_natural (p * r + u)
      rwa [ofRatio_unit low high (further.mpr half)] at rounds

theorem rounds_kept_iff (some_bits : 0 < bits) :
    Rounds n (ofRatio false (kept bits n) 1) ↔ kept bits n = n ∨ ¬ Halfway (kept bits n) ∨ overflow ≤ n := by
  by_cases all : kept bits n = n
  · exact iff_of_true (all.symm ▸ rounds_natural n) (.inl all)
  rw [or_iff_right all]
  have large : 2 ^ 53 ≤ n := by
    by_contra small
    exact all (kept_eq_self some_bits ((not_le.mp small).trans (Nat.pow_lt_pow_right (by decide) (by omega))))
  obtain ⟨e, log⟩ := Nat.exists_eq_add_of_le' (two_pow_le_log2 large)
  have divides : 2 ^ (bits * dropped bits n) ∣ 2 ^ e := Nat.pow_dvd_pow 2 ((dropped_le n).trans (by omega))
  have rest := Nat.mod_lt n (Nat.two_pow_pos (bits * dropped bits n))
  have split : kept bits n + n % 2 ^ (bits * dropped bits n) = n := Nat.div_add_mod' n _
  have lost := rounds_lost_iff divides (by omega) rest ((log2_kept bits large).trans log) (split.symm ▸ log)
  rw [← kept, split] at lost
  exact lost

/-! ## Texts -/

theorem digits_lt {ds : List ℕ} {cs : List Char} (text : Literal.Radix bits ds cs) :
    0 < bits ∧ ∀ d ∈ ds, d < 2 ^ bits := by
  obtain ⟨marked, -, digits⟩ := text
  refine ⟨by cases marked <;> decide, ?_⟩
  clear marked
  induction digits with
  | nil => exact fun d listed => absurd listed List.not_mem_nil
  | cons digit _ ih => exact List.forall_mem_cons.mpr ⟨digit.1, ih⟩

/-- A radix text is read as the number nearest to the digits that are kept. It is the nearest to all
the digits unless those that are kept end half way above an even number, others than zero are lost,
and the whole is no infinity. -/
theorem ofBytes_digitwise {ds : List ℕ} {cs : List Char} (text : Literal.Radix bits ds cs) :
    let n := Nat.ofDigits (2 ^ bits) ds.reverse
    let x := ofBytes (Utf8.encode (String.ofList cs))
    Rounds (kept bits n) x ∧ x.isNegative = false ∧
      (Rounds n x ↔ kept bits n = n ∨ ¬ Halfway (kept bits n) ∨ overflow ≤ n) := by
  intro n x
  have trimmed : Blank.trim cs = cs := by
    have trimmed : Blank.trim ([] ++ (cs ++ [])) = cs := Blank.trim_append (by simp) text.visible.solid
    rwa [List.nil_append, List.append_nil] at trimmed
  obtain ⟨some_bits, digits⟩ := digits_lt text
  have read : x = ofRatio false (kept bits n) 1 := by
    change ofBytes (Utf8.encode (String.ofList cs)) = _
    rw [ofBytes, Utf8.decodeLossy_encode, String.toList_ofList, trimmed, ofChars_digits text,
      foldl_appendDigit some_bits digits]
  rw [read]
  exact ⟨rounds_natural _, isNegative_ofRatio _ _ _, rounds_kept_iff some_bits⟩

/-- The last digit decides, and is lost. -/
theorem ofBytes_digitwise_sixteen :
    Literal.Radix 4 [1, 0, 0, 0, 0, 0, 0, 0, 0, 0, 0, 0, 0, 0, 8, 1] "0x1000000000000081".toList ∧
      Rounds (2 ^ 60 + 128) (ofBytes (Utf8.encode "0x1000000000000081")) ∧
      ¬ Rounds (2 ^ 60 + 129) (ofBytes (Utf8.encode "0x1000000000000081")) := by
  have text : Literal.Radix 4 [1, 0, 0, 0, 0, 0, 0, 0, 0, 0, 0, 0, 0, 0, 8, 1] "0x1000000000000081".toList := by
    have split : "0x1000000000000081".toList =
      ['0', 'x'] ++ ['1', '0', '0', '0', '0', '0', '0', '0', '0', '0', '0', '0', '0', '0', '8', '1'] := by decide
    rw [split]
    refine .mk (.hexadecimal (.inl rfl)) (by decide) ?_
    simp only [List.forall₂_cons, List.forall₂_nil_left_iff, Literal.IsDigit]
    decide
  obtain ⟨nearest, -, whole⟩ := ofBytes_digitwise text
  have value :
      Nat.ofDigits (2 ^ 4) [1, 0, 0, 0, 0, 0, 0, 0, 0, 0, 0, 0, 0, 0, 8, 1].reverse = 2 ^ 60 + 129 := by decide
  have first : kept 4 (2 ^ 60 + 129) = 2 ^ 60 + 128 := by decide +kernel
  rw [value, first, String.ofList_toList] at nearest whole
  have half : Halfway (2 ^ 60 + 128) := ⟨2 ^ 51, 7, by decide, by decide, by decide⟩
  have bounded : ((2 ^ 60 + 129 : ℕ) : ℚ) < overflow := by
    have power : (2 : ℚ) ^ (61 : ℤ) ≤ 2 ^ (971 : ℤ) := zpow_le_zpow_right₀ (by norm_num) (by norm_num)
    rw [overflow]
    generalize (2 : ℚ) ^ (971 : ℤ) = p at power
    norm_num at power ⊢
    linarith
  have cast : ((2 ^ 60 + 129 : ℕ) : ℚ) = 2 ^ 60 + 129 := by norm_num
  refine ⟨text, by exact_mod_cast nearest, fun rounds => ?_⟩
  rcases whole.mp (by rwa [cast]) with same | other | beyond
  · exact absurd same (by decide)
  · exact other half
  · exact bounded.not_ge beyond

end Binary64

end GuestHost
