import GuestHost.Machine.Memory

/-! The bytes that a memory holds from an address on, and what writes elsewhere leave of
them. -/

namespace GuestHost.Machine

/-- A word that fits into its bytes is read as it was written. -/
theorem bytesWord_wordBytes_of_lt {n w : Nat} (h : w < Nat.pow 256 n) :
    bytesWord (wordBytes n w) = w := by
  rw [bytesWord_wordBytes, Nat.mod_eq_of_lt h]

theorem bytesWord_lt (bs : List UInt8) : bytesWord bs < Nat.pow 256 bs.length := by
  induction bs with
  | nil => exact Nat.one_pos
  | cons b bs ih =>
      have byte := b.toNat_lt
      change b.toNat + 256 * bytesWord bs < Nat.pow 256 bs.length * 256
      omega

/-- Bytes are written as they were read. -/
theorem wordBytes_bytesWord (bs : List UInt8) : wordBytes bs.length (bytesWord bs) = bs := by
  induction bs with
  | nil => rfl
  | cons b bs ih =>
      have byte := b.toNat_lt
      have low : UInt8.ofNat (b.toNat + 256 * bytesWord bs) = b := by
        rw [← UInt8.toNat_inj, UInt8.toNat_ofNat']
        omega
      have high : (b.toNat + 256 * bytesWord bs) / 256 = bytesWord bs := by omega
      rw [bytesWord, List.length_cons, wordBytes, low, high, ih]

theorem wordBytes_one (b : UInt8) : wordBytes 1 b.toNat = [b] := by
  simp [wordBytes]

namespace Memory

variable {m : Memory} {a c : Nat} {bs cs : List UInt8}

/-- The memory holds these bytes from the address on, inside its size or not. -/
def Holds (m : Memory) (a : Nat) (bs : List UInt8) : Prop :=
  ∀ k b, bs[k]? = some b → m.byte (a + k) = b

theorem holds_nil : m.Holds a [] := by
  intro k b hk
  simp at hk

theorem holds_range (m : Memory) (a n : Nat) : m.Holds a ((List.range' a n).map m.byte) := by
  intro k b hk
  obtain ⟨_, rfl⟩ := List.getElem?_eq_some_iff.mp hk
  rw [List.getElem_map, List.getElem_range', Nat.one_mul]

theorem holds_append : m.Holds a (bs ++ cs) ↔ m.Holds a bs ∧ m.Holds (a + bs.length) cs := by
  constructor
  · intro h
    refine ⟨fun k b hk => ?_, fun k b hk => ?_⟩
    · have inside : k < bs.length := (List.getElem?_eq_some_iff.mp hk).1
      exact h k b (by rw [List.getElem?_append_left inside, hk])
    · rw [Nat.add_assoc]
      refine h (bs.length + k) b ?_
      rw [List.getElem?_append_right (Nat.le_add_right _ _), Nat.add_sub_cancel_left, hk]
  · intro ⟨first, second⟩ k b hk
    by_cases inside : k < bs.length
    · rw [List.getElem?_append_left inside] at hk
      exact first k b hk
    · rw [List.getElem?_append_right (Nat.not_lt.mp inside)] at hk
      have h := second (k - bs.length) b hk
      rwa [Nat.add_assoc, Nat.add_sub_cancel' (Nat.not_lt.mp inside)] at h

/-- Bytes that are held inside the memory can be read. -/
theorem Holds.read? (h : m.Holds a bs) (inside : a + bs.length ≤ m.size) :
    m.read? a bs.length = some bs := by
  rw [Memory.read?, if_pos inside, Option.some.injEq]
  refine List.ext_getElem (by simp) fun k hk hb => ?_
  rw [List.getElem_map, List.getElem_range', Nat.one_mul]
  exact h k _ (List.getElem?_eq_getElem hb)

/-! ## Writes -/

theorem byte_put_of_apart {i : Nat} (h : i < a ∨ a + bs.length ≤ i) :
    (m.put a bs).byte i = m.byte i := by
  rw [byte_put]
  split
  · rw [dif_neg (by omega)]
  · rfl

theorem holds_put : (m.put a bs).Holds a bs := by
  intro k b hk
  obtain ⟨hk, hb⟩ := List.getElem?_eq_some_iff.mp hk
  rw [byte_put, if_pos (Nat.le_add_right _ _), dif_pos (by omega)]
  simpa using hb

/-- A write leaves what is held beside it. -/
theorem Holds.put (h : m.Holds a bs) (apart : a + bs.length ≤ c ∨ c + cs.length ≤ a) :
    (m.put c cs).Holds a bs := by
  intro k b hk
  have inside : k < bs.length := (List.getElem?_eq_some_iff.mp hk).1
  rw [byte_put_of_apart (by omega)]
  exact h k b hk

theorem put_append (m : Memory) (a : Nat) (bs cs : List UInt8) :
    m.put a (bs ++ cs) = (m.put a bs).put (a + bs.length) cs := by
  induction bs generalizing m a with
  | nil => rfl
  | cons b bs ih =>
      rw [List.cons_append, Memory.put, ih, Memory.put, List.length_cons, Nat.add_right_comm, Nat.add_assoc]

@[simp] theorem put_pages (m : Memory) (a : Nat) (bs : List UInt8) : (m.put a bs).pages = m.pages := by
  induction bs generalizing m a with
  | nil => rfl
  | cons b bs ih => rw [Memory.put, ih]

@[simp] theorem put_max (m : Memory) (a : Nat) (bs : List UInt8) : (m.put a bs).max = m.max := by
  induction bs generalizing m a with
  | nil => rfl
  | cons b bs ih => rw [Memory.put, ih]

end Memory

end GuestHost.Machine
