import GuestHost.Proofs.Utf8
import Mathlib.Data.String.Basic

/-! The bytes of texts are ordered as the texts are: of two characters the lesser has the lesser
byte at the first place where their bytes differ. -/

namespace GuestHost.Utf8

theorem cons_lt_of_lt {a b : Nat} (less : a < b) (byte : b < 256) (xs ys : List UInt8) :
    UInt8.ofNat a :: xs < UInt8.ofNat b :: ys := by
  refine List.cons_lt_cons_iff.mpr (.inl ?_)
  rwa [UInt8.lt_iff_toNat_lt, UInt8.toNat_ofNat', UInt8.toNat_ofNat',
    Nat.mod_eq_of_lt (less.trans byte), Nat.mod_eq_of_lt byte]

/-- What follows a byte counts only if the byte is the same. -/
theorem cons_lt_of_le {a b : Nat} (le : a ≤ b) (byte : b < 256) {xs ys : List UInt8}
    (rest : a = b → xs < ys) : UInt8.ofNat a :: xs < UInt8.ofNat b :: ys := by
  rcases Nat.lt_or_eq_of_le le with less | same
  · exact cons_lt_of_lt less byte xs ys
  · exact List.cons_lt_cons_iff.mpr (.inr ⟨congrArg UInt8.ofNat same, rest same⟩)

/-- Of two characters the lesser has the lesser bytes, whatever follows them. -/
theorem utf8EncodeChar_append_lt {c d : Char} (less : c < d) (xs ys : List UInt8) :
    String.utf8EncodeChar c ++ xs < String.utf8EncodeChar d ++ ys := by
  have valid : d.val.toNat < 0xD800 ∨ 0xDFFF < d.val.toNat ∧ d.val.toNat < 0x110000 := d.valid
  replace less : c.val.toNat < d.val.toNat := UInt32.lt_iff_toNat_lt.mp less
  unfold String.utf8EncodeChar
  generalize c.val.toNat = v at less
  generalize d.val.toNat = w at less valid
  dsimp only
  -- A longer character starts with a greater byte. Of two that are as long, the first byte
  -- that differs decides.
  by_cases one : v ≤ 0x7F
  · rw [if_pos one]
    split_ifs <;> exact cons_lt_of_lt (by omega) (by omega) _ _
  by_cases two : v ≤ 0x7FF
  · rw [if_neg one, if_pos two, if_neg (by omega)]
    split_ifs
    · refine cons_lt_of_le (by omega) (by omega) fun _ => ?_
      exact cons_lt_of_lt (by omega) (by omega) _ _
    all_goals exact cons_lt_of_lt (by omega) (by omega) _ _
  by_cases three : v ≤ 0xFFFF
  · rw [if_neg one, if_neg two, if_pos three, if_neg (by omega), if_neg (by omega)]
    split_ifs
    · refine cons_lt_of_le (by omega) (by omega) fun _ => ?_
      refine cons_lt_of_le (by omega) (by omega) fun _ => ?_
      exact cons_lt_of_lt (by omega) (by omega) _ _
    · exact cons_lt_of_lt (by omega) (by omega) _ _
  · rw [if_neg one, if_neg two, if_neg three, if_neg (by omega), if_neg (by omega), if_neg (by omega)]
    refine cons_lt_of_le (by omega) (by omega) fun _ => ?_
    refine cons_lt_of_le (by omega) (by omega) fun _ => ?_
    refine cons_lt_of_le (by omega) (by omega) fun _ => ?_
    exact cons_lt_of_lt (by omega) (by omega) _ _

theorem flatMap_utf8EncodeChar_lt {s t : List Char} (less : s < t) :
    s.flatMap String.utf8EncodeChar < t.flatMap String.utf8EncodeChar := by
  induction s generalizing t with
  | nil =>
      cases t with
      | nil => cases less
      | cons d t =>
          obtain ⟨b, bs, bytes⟩ := List.exists_cons_of_ne_nil (String.utf8EncodeChar_ne_nil (c := d))
          rw [List.flatMap_nil, List.flatMap_cons, bytes]
          exact List.nil_lt_cons _ _
  | cons c s ih =>
      cases t with
      | nil => cases less
      | cons d t =>
          rcases List.cons_lt_cons_iff.mp less with first | ⟨rfl, rest⟩
          · exact utf8EncodeChar_append_lt first _ _
          · exact List.append_left_lt (ih rest)

/-- Texts are in the order of their bytes. -/
theorem encode_lt {s t : String} : (encode s).toList < (encode t).toList ↔ s < t := by
  rw [toList_encode, toList_encode, String.lt_iff_toList_lt]
  refine ⟨fun less => ?_, fun less => flatMap_utf8EncodeChar_lt less⟩
  by_contra notLess
  rcases lt_or_eq_of_le (not_lt.mp notLess) with more | same
  · exact List.lt_asymm less (flatMap_utf8EncodeChar_lt more)
  · exact List.lt_irrefl _ (same ▸ less)

end GuestHost.Utf8
