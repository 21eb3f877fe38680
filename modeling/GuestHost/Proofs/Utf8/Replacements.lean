import GuestHost.Proofs.Utf8

/-! Where something is replaced. A decoder that replaces nothing has read the bytes of its text, so
bytes that are those of no text leave a replacement in what they decode to. -/

namespace GuestHost.Utf8

/-! ## Characters -/

theorem decode?_encode (s : String) : decode? (encode s) = some s := by
  have valid : (ByteArray.mk (encode s)).IsValidUTF8 := s.isValidUTF8
  rw [decode?, String.fromUTF8?, dif_pos valid]
  rfl

theorem toNat_char {v : Nat} (valid : v.isValidChar) : (Char.ofNat v).val.toNat = v := by
  rw [Char.ofNat, dif_pos valid]
  rfl

theorem encodeChar_one {v : Nat} (one : v ≤ 0x7F) : String.utf8EncodeChar (Char.ofNat v) = [UInt8.ofNat v] := by
  rw [String.utf8EncodeChar, toNat_char (.inl (by omega)), if_pos one]

theorem encodeChar_two {v : Nat} (more : 0x80 ≤ v) (two : v ≤ 0x7FF) :
    String.utf8EncodeChar (Char.ofNat v) = [UInt8.ofNat (v / 64 + 0xC0), UInt8.ofNat (v % 64 + 0x80)] := by
  rw [String.utf8EncodeChar, toNat_char (.inl (by omega)), if_neg (by omega), if_pos two,
    Nat.mod_eq_of_lt (a := v / 64) (by omega)]

theorem encodeChar_three {v : Nat} (more : 0x800 ≤ v) (three : v ≤ 0xFFFF) (valid : v < 0xD800 ∨ 0xDFFF < v) :
    String.utf8EncodeChar (Char.ofNat v) =
      [UInt8.ofNat (v / 4096 + 0xE0), UInt8.ofNat (v / 64 % 64 + 0x80), UInt8.ofNat (v % 64 + 0x80)] := by
  have scalar : v.isValidChar := valid.imp_right fun above => ⟨above, by omega⟩
  rw [String.utf8EncodeChar, toNat_char scalar, if_neg (by omega), if_neg (by omega), if_pos three,
    Nat.mod_eq_of_lt (a := v / 4096) (by omega)]

theorem encodeChar_four {v : Nat} (more : 0x10000 ≤ v) (four : v < 0x110000) :
    String.utf8EncodeChar (Char.ofNat v) = [UInt8.ofNat (v / 262144 + 0xF0), UInt8.ofNat (v / 4096 % 64 + 0x80),
      UInt8.ofNat (v / 64 % 64 + 0x80), UInt8.ofNat (v % 64 + 0x80)] := by
  rw [String.utf8EncodeChar, toNat_char (.inr ⟨by omega, four⟩), if_neg (by omega), if_neg (by omega),
    if_neg (by omega), Nat.mod_eq_of_lt (a := v / 262144) (by omega)]

/-! ## Characters that are started -/

/-- What a decoder makes of the bytes since the last whole character: a character has exactly them,
and one that is started will have them before the bytes that it still expects. -/
inductive Begins : Lead → List UInt8 → Prop
  | char (c : Char) : Begins (.char c) (String.utf8EncodeChar c)
  | more {p : Partial} {bytes : List UInt8}
      (next : ∀ b, p.accepts b = true → Begins (p.push b) (bytes ++ [b])) : Begins (.more p) bytes

variable {low high : UInt8} {n code : Nat} {bytes : List UInt8}

/-- A byte in the range that a started character expects is its six bits. -/
theorem exists_bits {p : Partial} {b : UInt8} (least : 0x80 ≤ p.low.toNat) (most : p.high.toNat ≤ 0xBF)
    (accepted : p.accepts b = true) : ∃ k < 64, p.low.toNat ≤ k + 0x80 ∧ k + 0x80 ≤ p.high.toNat ∧
      b.toNat - 0x80 = k ∧ b = UInt8.ofNat (k + 0x80) := by
  rw [Partial.accepts, Bool.and_eq_true, decide_eq_true_eq, decide_eq_true_eq, UInt8.le_iff_toNat_le,
    UInt8.le_iff_toNat_le] at accepted
  refine ⟨b.toNat - 0x80, by omega, by omega, by omega, rfl, ?_⟩
  rw [show b.toNat - 0x80 + 0x80 = b.toNat by omega, UInt8.ofNat_toNat]

theorem begins_last (least : 0x80 ≤ low.toNat) (most : high.toNat ≤ 0xBF)
    (last : ∀ k < 64, low.toNat ≤ k + 0x80 → k + 0x80 ≤ high.toNat →
      String.utf8EncodeChar (Char.ofNat (code * 64 + k)) = bytes ++ [UInt8.ofNat (k + 0x80)]) :
    Begins (.more ⟨1, low, high, code⟩) bytes := by
  refine .more fun b accepted => ?_
  obtain ⟨k, few, above, below, bits, byte⟩ := exists_bits least most accepted
  rw [Partial.push, if_pos (Nat.le_refl 1), bits, byte, ← last k few above below]
  exact .char _

theorem begins_more (least : 0x80 ≤ low.toNat) (most : high.toNat ≤ 0xBF)
    (rest : ∀ k < 64, low.toNat ≤ k + 0x80 → k + 0x80 ≤ high.toNat →
      Begins (.more ⟨n + 1, 0x80, 0xBF, code * 64 + k⟩) (bytes ++ [UInt8.ofNat (k + 0x80)])) :
    Begins (.more ⟨n + 2, low, high, code⟩) bytes := by
  refine .more fun b accepted => ?_
  obtain ⟨k, few, above, below, bits, byte⟩ := exists_bits least most accepted
  rw [Partial.push, if_neg (by change ¬ n + 2 ≤ 1; omega), bits, byte]
  exact rest k few above below

theorem begins_two {l : Nat} (some_l : 2 ≤ l) (few : l < 32) :
    Begins (.more ⟨1, 0x80, 0xBF, l⟩) [UInt8.ofNat (l + 0xC0)] := by
  refine begins_last (by decide) (by decide) fun k small _ _ => ?_
  rw [encodeChar_two (by omega) (by omega), show (l * 64 + k) / 64 = l by omega, show (l * 64 + k) % 64 = k by omega]
  rfl

/-- The range of the second byte keeps out what is shorter, and surrogates. -/
theorem begins_three {l : Nat} (few : l < 16) (least : 0x80 ≤ low.toNat) (most : high.toNat ≤ 0xBF)
    (shortest : l = 0 → 0xA0 ≤ low.toNat) (scalar : l = 13 → high.toNat ≤ 0x9F) :
    Begins (.more ⟨2, low, high, l⟩) [UInt8.ofNat (l + 0xE0)] := by
  refine begins_more least most fun k small above below => ?_
  refine begins_last (by decide) (by decide) fun j tiny _ _ => ?_
  rw [encodeChar_three (by omega) (by omega) (by omega), show ((l * 64 + k) * 64 + j) / 4096 = l by omega,
    show ((l * 64 + k) * 64 + j) / 64 % 64 = k by omega, show ((l * 64 + k) * 64 + j) % 64 = j by omega]
  rfl

/-- The range of the second byte keeps out what is shorter, and what there is not. -/
theorem begins_four {l : Nat} (few : l < 5) (least : 0x80 ≤ low.toNat) (most : high.toNat ≤ 0xBF)
    (shortest : l = 0 → 0x90 ≤ low.toNat) (last : l = 4 → high.toNat ≤ 0x8F) :
    Begins (.more ⟨3, low, high, l⟩) [UInt8.ofNat (l + 0xF0)] := by
  refine begins_more least most fun k small above below => ?_
  refine begins_more (by decide) (by decide) fun j _ _ _ => ?_
  refine begins_last (by decide) (by decide) fun i tiny _ _ => ?_
  rw [encodeChar_four (by omega) (by omega), show (((l * 64 + k) * 64 + j) * 64 + i) / 262144 = l by omega,
    show (((l * 64 + k) * 64 + j) * 64 + i) / 4096 % 64 = k by omega,
    show (((l * 64 + k) * 64 + j) * 64 + i) / 64 % 64 = j by omega,
    show (((l * 64 + k) * 64 + j) * 64 + i) % 64 = i by omega]
  rfl

theorem lead_bad :
    (∀ k < 66, lead (UInt8.ofNat (k + 0x80)) = .bad) ∧ ∀ k < 11, lead (UInt8.ofNat (k + 0xF5)) = .bad := by
  decide

theorem begins_lead (b : UInt8) : lead b = .bad ∨ Begins (lead b) [b] := by
  have size := b.toNat_lt
  have byte {k : Nat} (least : k ≤ b.toNat) : b = UInt8.ofNat (b.toNat - k + k) := by
    rw [Nat.sub_add_cancel least, UInt8.ofNat_toNat]
  by_cases one : b.toNat < 0x80
  · have encoded := encodeChar_one (v := b.toNat) (by omega)
    have char := lead_one one
    rw [UInt8.ofNat_toNat] at encoded char
    rw [char, ← encoded]
    exact .inr (.char _)
  · by_cases none : b.toNat < 0xC2
    · rw [byte (k := 0x80) (by omega)]
      exact .inl (lead_bad.1 _ (by omega))
    · by_cases two : b.toNat < 0xE0
      · rw [byte (k := 0xC0) (by omega), lead_two _ (by omega) (by omega)]
        exact .inr (begins_two (by omega) (by omega))
      · by_cases three : b.toNat < 0xF0
        · rw [byte (k := 0xE0) (by omega), lead_three _ (by omega)]
          refine .inr (begins_three (by omega) ?_ ?_ (fun zero => ?_) fun last => ?_)
          · split <;> decide
          · split <;> decide
          · rw [if_pos zero]
            decide
          · rw [if_pos last]
            decide
        · by_cases four : b.toNat < 0xF5
          · rw [byte (k := 0xF0) (by omega), lead_four _ (by omega)]
            refine .inr (begins_four (by omega) ?_ ?_ (fun zero => ?_) fun last => ?_)
            · split <;> decide
            · split <;> decide
            · rw [if_pos zero]
              decide
            · rw [if_pos last]
              decide
          · rw [byte (k := 0xF5) (by omega)]
            exact .inl (lead_bad.2 _ (by omega))

/-! ## Nothing replaced -/

/-- A decoder that has replaced nothing has read the bytes of its text, and then those of the
character that it has started. -/
inductive Decoder.Reads (d : Decoder) (bytes : List UInt8) : Prop
  | replaced (replaced : replacement ∈ d.text.toList)
  | whole (none : d.started = none) (same : bytes = d.text.toList.flatMap String.utf8EncodeChar)
  | started {p : Partial} {rest : List UInt8} (some : d.started = some p) (begun : Begins (.more p) rest)
      (same : bytes = d.text.toList.flatMap String.utf8EncodeChar ++ rest)

namespace Decoder

variable {d : Decoder} {text : String}

theorem toList_push_mem {c : Char} (replaced : replacement ∈ text.toList) : replacement ∈ (text.push c).toList := by
  rw [String.toList_push]
  exact List.mem_append_left _ replaced

theorem begin_replaced (l : Lead) (replaced : replacement ∈ text.toList) (bytes : List UInt8) :
    (begin ⟨text, none⟩ l).Reads bytes := by
  cases l with
  | char c => exact .replaced (toList_push_mem replaced)
  | more p => exact .replaced replaced
  | bad => exact .replaced (toList_push_mem replaced)

theorem begin_reads {l : Lead} {rest : List UInt8} (begun : l = .bad ∨ Begins l rest) :
    (begin ⟨text, none⟩ l).Reads (text.toList.flatMap String.utf8EncodeChar ++ rest) := by
  rcases begun with rfl | begun
  · refine .replaced ?_
    rw [begin, String.toList_push]
    exact List.mem_append_right _ List.mem_cons_self
  · cases begun with
    | char c =>
        refine .whole rfl ?_
        rw [begin, String.toList_push, List.flatMap_append, List.flatMap_singleton]
    | more next => exact .started rfl (.more next) rfl

theorem step_reads (reads : d.Reads bytes) (b : UInt8) : (d.step b).Reads (bytes ++ [b]) := by
  obtain ⟨text, started⟩ := d
  cases reads with
  | replaced replaced =>
      cases started with
      | none => exact begin_replaced _ replaced _
      | some p =>
          rw [step]
          split
          · exact begin_replaced _ replaced _
          · exact begin_replaced _ (toList_push_mem replaced) _
  | whole none same =>
      cases none
      rw [same]
      exact begin_reads (begins_lead b)
  | started some begun same =>
      cases some
      cases begun with
      | more next =>
          rw [step]
          split
          · next accepted =>
              rw [same, List.append_assoc]
              exact begin_reads (.inr (next b accepted))
          · refine begin_replaced _ ?_ _
            rw [String.toList_push]
            exact List.mem_append_right _ List.mem_cons_self

theorem foldl_reads (reads : d.Reads bytes) (rest : List UInt8) : (rest.foldl step d).Reads (bytes ++ rest) := by
  induction rest generalizing d bytes with
  | nil => rwa [List.append_nil]
  | cons b rest ih =>
      have next := ih (step_reads reads b)
      rwa [List.append_assoc] at next

end Decoder

/-- Bytes that decode to a text without a replacement are the bytes of the text. -/
theorem encode_decodeLossy {bytes : Array UInt8} (whole : replacement ∉ (decodeLossy bytes).toList) :
    encode (decodeLossy bytes) = bytes := by
  have reads := Decoder.foldl_reads (.whole rfl rfl : Decoder.Reads {} []) bytes.toList
  rw [decodeLossy, ← Array.foldl_toList] at whole ⊢
  generalize bytes.toList.foldl Decoder.step {} = d at reads whole
  obtain ⟨text, started⟩ := d
  have pushed : replacement ∈ (text.push replacement).toList := by
    rw [String.toList_push]
    exact List.mem_append_right _ List.mem_cons_self
  cases reads with
  | replaced replaced =>
      cases started with
      | none => exact absurd replaced whole
      | some p => exact absurd pushed whole
  | whole none same =>
      cases none
      rw [← Array.toList_inj, toList_encode]
      exact same.symm
  | started some =>
      cases some
      exact absurd pushed whole

/-- Bytes that are those of no text have something replaced. -/
theorem replacement_mem {bytes : Array UInt8} (malformed : decode? bytes = none) :
    replacement ∈ (decodeLossy bytes).toList := by
  refine Decidable.byContradiction fun whole => ?_
  have same := encode_decodeLossy whole
  rw [← same, decode?_encode] at malformed
  cases malformed

end GuestHost.Utf8
