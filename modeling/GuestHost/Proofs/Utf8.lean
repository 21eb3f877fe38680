import GuestHost.Text.Utf8

/-! Decoding undoes encoding: in the bytes of a text nothing is undecodable. No byte is passed
over, so only the empty byte string decodes to the empty text. -/

namespace GuestHost.Utf8

/-! ## Bytes -/

theorem lead_one {k : Nat} (h : k < 128) : lead (UInt8.ofNat k) = .char (Char.ofNat k) := by
  have byte : (UInt8.ofNat k).toNat = k := by
    rw [UInt8.toNat_ofNat', Nat.mod_eq_of_lt (by omega)]
  have low : UInt8.ofNat k < 0x80 := by
    rw [UInt8.lt_iff_toNat_lt, byte]
    exact h
  rw [lead, if_pos low, byte]

theorem lead_two : ∀ k < 32, 2 ≤ k → lead (UInt8.ofNat (k + 0xC0)) = .more ⟨1, 0x80, 0xBF, k⟩ := by
  decide

theorem lead_three : ∀ k < 16, lead (UInt8.ofNat (k + 0xE0)) =
    .more ⟨2, if k = 0 then 0xA0 else 0x80, if k = 13 then 0x9F else 0xBF, k⟩ := by
  decide

theorem lead_four : ∀ k < 5, lead (UInt8.ofNat (k + 0xF0)) =
    .more ⟨3, if k = 0 then 0x90 else 0x80, if k = 4 then 0x8F else 0xBF, k⟩ := by
  decide

/-- A byte in the range that a started character expects adds its six bits. -/
theorem step_accepted {text : String} {p : Partial} {k : Nat} (h : k < 64)
    (low : p.low.toNat ≤ k + 0x80) (high : k + 0x80 ≤ p.high.toNat) :
    Decoder.step ⟨text, some p⟩ (UInt8.ofNat (k + 0x80)) =
      Decoder.begin ⟨text, none⟩
        (if p.owed ≤ 1 then .char (Char.ofNat (p.code * 64 + k))
          else .more ⟨p.owed - 1, 0x80, 0xBF, p.code * 64 + k⟩) := by
  have byte : (UInt8.ofNat (k + 0x80)).toNat = k + 0x80 := by
    rw [UInt8.toNat_ofNat', Nat.mod_eq_of_lt (by omega)]
  have accepts : p.accepts (UInt8.ofNat (k + 0x80)) = true := by
    rw [Partial.accepts, Bool.and_eq_true, decide_eq_true_eq, decide_eq_true_eq,
      UInt8.le_iff_toNat_le, UInt8.le_iff_toNat_le, byte]
    exact ⟨low, high⟩
  rw [Decoder.step, if_pos accepts, Partial.push, byte, Nat.add_sub_cancel]

theorem step_last {text : String} {low high : UInt8} {code k : Nat} (h : k < 64)
    (above : low.toNat ≤ k + 0x80) (below : k + 0x80 ≤ high.toNat) :
    Decoder.step ⟨text, some ⟨1, low, high, code⟩⟩ (UInt8.ofNat (k + 0x80)) =
      ⟨text.push (Char.ofNat (code * 64 + k)), none⟩ :=
  step_accepted h above below

theorem step_more {text : String} {low high : UInt8} {n code k : Nat} (h : k < 64)
    (above : low.toNat ≤ k + 0x80) (below : k + 0x80 ≤ high.toNat) :
    Decoder.step ⟨text, some ⟨n + 2, low, high, code⟩⟩ (UInt8.ofNat (k + 0x80)) =
      ⟨text, some ⟨n + 1, 0x80, 0xBF, code * 64 + k⟩⟩ := by
  rw [step_accepted h above below, if_neg (by change ¬ n + 2 ≤ 1; omega)]
  rfl

/-- The range that most bytes of a character lie in. -/
theorem in_range {k : Nat} (h : k < 64) :
    (0x80 : UInt8).toNat ≤ k + 0x80 ∧ k + 0x80 ≤ (0xBF : UInt8).toNat := by
  change 0x80 ≤ k + 0x80 ∧ k + 0x80 ≤ 0xBF
  omega

/-! ## Characters -/

variable {text : String}

theorem foldl_one {v : Nat} (one : v ≤ 0x7F) :
    [UInt8.ofNat v].foldl Decoder.step ⟨text, none⟩ = ⟨text.push (Char.ofNat v), none⟩ := by
  rw [List.foldl_cons, List.foldl_nil, Decoder.step, lead_one (by omega), Decoder.begin]

theorem foldl_two {v : Nat} (more : ¬ v ≤ 0x7F) (two : v ≤ 0x7FF) :
    [UInt8.ofNat (v / 64 + 0xC0), UInt8.ofNat (v % 64 + 0x80)].foldl Decoder.step ⟨text, none⟩ =
      ⟨text.push (Char.ofNat v), none⟩ := by
  have lowest : v % 64 < 64 := Nat.mod_lt _ (by decide)
  simp only [List.foldl_cons, List.foldl_nil]
  rw [Decoder.step, lead_two _ (by omega) (by omega), Decoder.begin,
    step_last lowest (in_range lowest).1 (in_range lowest).2, Nat.div_add_mod']

/-- The first byte narrows the range of the second, to shortest forms and to no surrogates. -/
theorem foldl_three {v : Nat} (more : ¬ v ≤ 0x7FF) (three : v ≤ 0xFFFF)
    (valid : v < 0xD800 ∨ 0xDFFF < v) :
    [UInt8.ofNat (v / 4096 + 0xE0), UInt8.ofNat (v / 64 % 64 + 0x80), UInt8.ofNat (v % 64 + 0x80)].foldl
      Decoder.step ⟨text, none⟩ = ⟨text.push (Char.ofNat v), none⟩ := by
  have lowest : v % 64 < 64 := Nat.mod_lt _ (by decide)
  have middle : v / 64 % 64 < 64 := Nat.mod_lt _ (by decide)
  have code : (v / 4096 * 64 + v / 64 % 64) * 64 + v % 64 = v := by omega
  simp only [List.foldl_cons, List.foldl_nil]
  rw [Decoder.step, lead_three _ (by omega), Decoder.begin, step_more middle ?_ ?_,
    step_last lowest (in_range lowest).1 (in_range lowest).2, code]
  · by_cases least : v / 4096 = 0
    · rw [if_pos least]
      change 0xA0 ≤ _
      omega
    · rw [if_neg least]
      exact (in_range middle).1
  · by_cases surrogate : v / 4096 = 13
    · rw [if_pos surrogate]
      change _ ≤ 0x9F
      omega
    · rw [if_neg surrogate]
      exact (in_range middle).2

/-- The first byte narrows the range of the second, to shortest forms and to what there is. -/
theorem foldl_four {v : Nat} (more : ¬ v ≤ 0xFFFF) (valid : v < 0x110000) :
    [UInt8.ofNat (v / 262144 + 0xF0), UInt8.ofNat (v / 4096 % 64 + 0x80), UInt8.ofNat (v / 64 % 64 + 0x80),
      UInt8.ofNat (v % 64 + 0x80)].foldl Decoder.step ⟨text, none⟩ = ⟨text.push (Char.ofNat v), none⟩ := by
  have lowest : v % 64 < 64 := Nat.mod_lt _ (by decide)
  have middle : v / 64 % 64 < 64 := Nat.mod_lt _ (by decide)
  have upper : v / 4096 % 64 < 64 := Nat.mod_lt _ (by decide)
  have code : ((v / 262144 * 64 + v / 4096 % 64) * 64 + v / 64 % 64) * 64 + v % 64 = v := by omega
  simp only [List.foldl_cons, List.foldl_nil]
  rw [Decoder.step, lead_four _ (by omega), Decoder.begin, step_more upper ?_ ?_,
    step_more middle (in_range middle).1 (in_range middle).2,
    step_last lowest (in_range lowest).1 (in_range lowest).2, code]
  · by_cases least : v / 262144 = 0
    · rw [if_pos least]
      change 0x90 ≤ _
      omega
    · rw [if_neg least]
      exact (in_range upper).1
  · by_cases last : v / 262144 = 4
    · rw [if_pos last]
      change _ ≤ 0x8F
      omega
    · rw [if_neg last]
      exact (in_range upper).2

/-- The bytes of a character are read as the character. -/
theorem foldl_utf8EncodeChar (c : Char) :
    (String.utf8EncodeChar c).foldl Decoder.step ⟨text, none⟩ = ⟨text.push c, none⟩ := by
  have self : Char.ofNat c.val.toNat = c := Char.ofNat_toNat c
  have valid : c.val.toNat < 0xD800 ∨ 0xDFFF < c.val.toNat ∧ c.val.toNat < 0x110000 := c.valid
  unfold String.utf8EncodeChar
  generalize c.val.toNat = v at self valid
  dsimp only
  by_cases one : v ≤ 0x7F
  · rw [if_pos one, foldl_one one, self]
  · by_cases two : v ≤ 0x7FF
    · rw [if_neg one, if_pos two, Nat.mod_eq_of_lt (a := v / 64) (by omega), foldl_two one two, self]
    · by_cases three : v ≤ 0xFFFF
      · rw [if_neg one, if_neg two, if_pos three, Nat.mod_eq_of_lt (a := v / 4096) (by omega),
          foldl_three two three (by omega), self]
      · rw [if_neg one, if_neg two, if_neg three, Nat.mod_eq_of_lt (a := v / 262144) (by omega),
          foldl_four three (by omega), self]

theorem foldl_flatMap (cs : List Char) :
    (cs.flatMap String.utf8EncodeChar).foldl Decoder.step ⟨text, none⟩ =
      ⟨cs.foldl String.push text, none⟩ := by
  induction cs generalizing text with
  | nil => rfl
  | cons c cs ih => rw [List.flatMap_cons, List.foldl_append, foldl_utf8EncodeChar, ih, List.foldl_cons]

theorem toList_foldl_push (cs : List Char) :
    (cs.foldl String.push text).toList = text.toList ++ cs := by
  induction cs generalizing text with
  | nil => simp
  | cons c cs ih => rw [List.foldl_cons, ih, String.toList_push, List.append_assoc, List.singleton_append]

theorem toList_encode (s : String) : (encode s).toList = s.toList.flatMap String.utf8EncodeChar := by
  rw [encode, String.toUTF8_eq_toByteArray, ← String.utf8Encode_toList, List.utf8Encode]
  simp

/-- A text survives being encoded and decoded. -/
theorem decodeLossy_encode (s : String) : decodeLossy (encode s) = s := by
  rw [decodeLossy, ← Array.foldl_toList, toList_encode, foldl_flatMap, Decoder.finish]
  exact String.toList_inj.mp (toList_foldl_push s.toList)

/-! ## Any bytes -/

/-- Whatever a byte turns out to be, it leaves something in the text. -/
theorem begin_finish_ne (d : Decoder) (l : Lead) : (d.begin l).finish ≠ "" := by
  cases l with
  | char c => exact String.push_ne_empty
  | more p => exact String.push_ne_empty
  | bad => exact String.push_ne_empty

theorem step_finish_ne (d : Decoder) (b : UInt8) : (d.step b).finish ≠ "" := by
  obtain ⟨text, started⟩ := d
  cases started with
  | none => exact begin_finish_ne _ _
  | some p =>
      rw [Decoder.step]
      split
      · exact begin_finish_ne _ _
      · exact begin_finish_ne _ _

/-- Only where there are no bytes is there no text. -/
theorem decodeLossy_eq_empty {bytes : Array UInt8} : decodeLossy bytes = "" ↔ bytes = #[] := by
  constructor
  · intro empty
    refine Decidable.byContradiction fun nonempty => ?_
    obtain ⟨before, b, rfl⟩ := Array.exists_push_of_ne_empty nonempty
    rw [decodeLossy, Array.foldl_push] at empty
    exact step_finish_ne _ b empty
  · intro empty
    rw [empty]
    rfl

end GuestHost.Utf8
