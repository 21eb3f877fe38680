import GuestHost.Proofs.Support.Allocation

/-! What the functions that only look at memory come to where a box or an array lies. -/

namespace GuestHost.Support.Work

open Machine Space

variable {x : Space}

theorem fetch_eq {n a : Nat} {bs : List UInt8} (held : x.memory.Holds a bs) (length : bs.length = n)
    (inside : a + n ≤ x.memory.size) : fetch n a x = (.ok (bytesWord bs), x) := by
  subst length
  rw [fetch, held.read? inside]

theorem require_eq {c : Bool} (h : c = true) : Work.require c x = (.ok (), x) := by
  rw [Work.require, if_pos h]
  rfl

theorem require_error {c : Bool} (h : c = false) :
    Work.require c x = (.error (.trap .unreachable), x) := by
  rw [Work.require, if_neg (by simp [h])]
  rfl

theorem expect_eq {v tag : UInt32} (some_v : v ≠ 0) (held : x.memory.Holds v.toNat (wordBytes 4 tag.toNat))
    (inside : v.toNat + 4 ≤ x.memory.size) : expect v tag x = (.ok (), x) := by
  rw [expect, bind_eq (require_eq (by simpa using some_v)), bind_eq (fetch_eq held (by simp) inside),
    bytesWord_wordBytes_of_lt tag.toNat_lt]
  exact require_eq (by simp)

/-- A box with another tag is not what was expected, and neither is nil. -/
theorem expect_error {v tag other : UInt32} (held : x.memory.Holds v.toNat (wordBytes 4 other.toNat))
    (inside : v.toNat + 4 ≤ x.memory.size) (differ : other ≠ tag) :
    expect v tag x = (.error (.trap .unreachable), x) := by
  rw [expect]
  by_cases nil : v = 0
  · exact bind_error (require_error (by simpa using nil))
  · rw [bind_eq (require_eq (by simpa using nil)), bind_eq (fetch_eq held (by simp) inside),
      bytesWord_wordBytes_of_lt other.toNat_lt]
    exact require_error (by simpa using differ)

theorem expect_nil (tag : UInt32) : expect 0 tag x = (.error (.trap .unreachable), x) := by
  rw [expect]
  exact bind_error (require_error rfl)

theorem head_eq {v w : UInt32} (some_v : v ≠ 0) (held : x.memory.Holds v.toNat (wordBytes 4 w.toNat))
    (inside : v.toNat + 4 ≤ x.memory.size) : head v x = (.ok w, x) := by
  rw [head, if_neg some_v, bind_eq (fetch_eq held (by simp) inside),
    bytesWord_wordBytes_of_lt w.toNat_lt, UInt32.ofNat_toNat]
  rfl

/-! ## Boxes -/

/-- The bytes of a box whose payload is a word of eight bytes. -/
def wordBox (tag : UInt32) (n : UInt64) : List UInt8 := header tag 8 ++ wordBytes 8 n.toNat

theorem unboxWord_eq {tag v : UInt32} {n : UInt64} (some_v : v ≠ 0)
    (held : x.memory.Holds v.toNat (wordBox tag n)) (inside : v.toNat + 16 ≤ x.memory.size) :
    unboxWord tag v x = (.ok n, x) := by
  obtain ⟨head, word⟩ := Memory.holds_append.mp held
  have tagged := (Memory.holds_append.mp head).1
  rw [length_header] at word
  rw [unboxWord, bind_eq (expect_eq some_v tagged (by omega)),
    bind_eq (fetch_eq word (by simp) (by omega)), bytesWord_wordBytes_of_lt n.toNat_lt,
    UInt64.ofNat_toNat]
  rfl

theorem stringLen_eq {v length : UInt32} (some_v : v ≠ 0)
    (held : x.memory.Holds v.toNat (header 4 length)) (inside : v.toNat + 8 ≤ x.memory.size) :
    stringLen v x = (.ok length, x) := by
  obtain ⟨tagged, word⟩ := Memory.holds_append.mp held
  rw [length_wordBytes] at word
  rw [stringLen, bind_eq (expect_eq some_v tagged (by omega)),
    bind_eq (fetch_eq word (by simp) (by omega)), bytesWord_wordBytes_of_lt length.toNat_lt,
    UInt32.ofNat_toNat]
  rfl

theorem stringBytes_eq {v length : UInt32} (some_v : v ≠ 0)
    (held : x.memory.Holds v.toNat (header 4 length)) (inside : v.toNat + 8 ≤ x.memory.size) :
    stringBytes v x = (.ok (v + 8), x) := by
  have tagged := (Memory.holds_append.mp held).1
  rw [stringBytes, bind_eq (expect_eq some_v tagged (by omega))]
  rfl

/-! ## Arrays -/

/-- The bytes of an array. -/
def arrayBytes (elems : List UInt32) : List UInt8 :=
  wordBytes 4 elems.length ++ elems.flatMap fun v => wordBytes 4 v.toNat

theorem length_words (elems : List UInt32) :
    (elems.flatMap fun v => wordBytes 4 v.toNat).length = 4 * elems.length := by
  induction elems with
  | nil => rfl
  | cons v vs ih =>
      rw [List.flatMap_cons, List.length_append, ih, length_wordBytes, List.length_cons]
      omega

/-- An element lies at its place behind the length. -/
theorem holds_elem {m : Memory} {a : Nat} {elems : List UInt32} {i : Nat} {w : UInt32}
    (held : m.Holds a (arrayBytes elems)) (found : elems[i]? = some w) :
    m.Holds (a + 4 + 4 * i) (wordBytes 4 w.toNat) := by
  obtain ⟨inside, rfl⟩ := List.getElem?_eq_some_iff.mp found
  have split : elems = elems.take i ++ elems[i] :: elems.drop (i + 1) := by simp
  have words := (Memory.holds_append.mp held).2
  rw [split, List.flatMap_append, List.flatMap_cons] at words
  have word := (Memory.holds_append.mp (Memory.holds_append.mp words).2).1
  rwa [length_wordBytes, length_words, List.length_take, Nat.min_eq_left (Nat.le_of_lt inside)] at word

theorem slot_nil {index : UInt32} : slot 0 index x = (.error (.trap .unreachable), x) := by
  rw [slot]
  exact bind_error (require_error rfl)

theorem slot_eq {array index length : UInt32} (some_array : array ≠ 0)
    (held : x.memory.Holds array.toNat (wordBytes 4 length.toNat))
    (inside : array.toNat + 4 ≤ x.memory.size) (below : index < length) :
    slot array index x = (.ok (array + 4 + index <<< (2 : UInt32)), x) := by
  rw [slot, bind_eq (require_eq (by simpa using some_array)),
    bind_eq (fetch_eq held (by simp) inside), bytesWord_wordBytes_of_lt length.toNat_lt,
    UInt32.ofNat_toNat]
  exact bind_eq (require_eq (by simpa using below))

theorem slot_error {array index length : UInt32}
    (held : x.memory.Holds array.toNat (wordBytes 4 length.toNat))
    (inside : array.toNat + 4 ≤ x.memory.size) (outside : ¬ index < length) :
    slot array index x = (.error (.trap .unreachable), x) := by
  rw [slot]
  by_cases nil : array = 0
  · exact bind_error (require_error (by simpa using nil))
  · rw [bind_eq (require_eq (by simpa using nil)), bind_eq (fetch_eq held (by simp) inside),
      bytesWord_wordBytes_of_lt length.toNat_lt, UInt32.ofNat_toNat]
    exact bind_error (require_error (by simpa using outside))

/-- The address of an element does not wrap as long as the array lies in memory. -/
theorem toNat_slot {array index length : UInt32} (below : index < length)
    (fits : array.toNat + 4 + 4 * length.toNat ≤ limit) :
    (array + 4 + index <<< (2 : UInt32)).toNat = array.toNat + 4 + 4 * index.toNat := by
  have four : (4 : UInt32).toNat = 4 := rfl
  have two : (2 : UInt32).toNat % 32 = 2 := rfl
  rw [UInt32.lt_iff_toNat_lt] at below
  unfold limit at fits
  rw [UInt32.toNat_add, UInt32.toNat_add, UInt32.toNat_shiftLeft, four, two, Nat.shiftLeft_eq,
    Nat.mod_eq_of_lt (a := index.toNat * 2 ^ 2) (by omega),
    Nat.mod_eq_of_lt (a := array.toNat + 4) (by omega), Nat.mod_eq_of_lt (by omega)]
  omega

/-! ## Work that only looks -/

/-- Whatever the work comes to, what it leaves is related to what it found. -/
def Keeps {α : Type} (R : Space → Space → Prop) (work : Work α) : Prop :=
  ∀ x, R x (work x).2

section

variable {α β : Type} {R : Space → Space → Prop}

theorem Keeps.bind (trans : ∀ {x y z}, R x y → R y z → R x z) {first : Work α} {rest : α → Work β}
    (h : Keeps R first) (h' : ∀ a, Keeps R (rest a)) : Keeps R (first >>= rest) := by
  intro x
  have kept := h x
  rw [bind_apply]
  rcases hf : first x with ⟨e | a, y⟩
  · rwa [hf] at kept
  · rw [hf] at kept
    exact trans kept (h' a y)

theorem Keeps.pure (refl : ∀ x, R x x) (a : α) : Keeps R (Pure.pure a : Work α) := refl

theorem fetch_keeps (refl : ∀ x, R x x) (n a : Nat) : Keeps R (fetch n a) := by
  intro x
  unfold fetch
  split
  · exact refl x
  · exact refl x

theorem require_keeps (refl : ∀ x, R x x) (c : Bool) : Keeps R (Work.require c) := by
  intro x
  cases c with
  | true => exact refl x
  | false => exact refl x

end

/-- The work leaves everything as it was. -/
abbrev Looks {α : Type} (work : Work α) : Prop := Keeps Eq work

theorem Looks.bind {α β : Type} {first : Work α} {rest : α → Work β} (h : Looks first)
    (h' : ∀ a, Looks (rest a)) : Looks (first >>= rest) :=
  Keeps.bind (R := Eq) Eq.trans h h'

/-- Work after a look begins where the look began. -/
theorem Looks.bind_right {α β : Type} {first : Work α} {rest : α → Work β} (h : Looks first)
    {P : Space → Prop} (stays : P x) (h' : ∀ a, P (rest a x).2) : P ((first >>= rest) x).2 := by
  have looked := h x
  rw [bind_apply]
  rcases hf : first x with ⟨e | a, y⟩
  · rw [hf] at looked
    obtain rfl : x = y := looked
    exact stays
  · rw [hf] at looked
    obtain rfl : x = y := looked
    exact h' a

theorem fetch_looks (n a : Nat) : Looks (fetch n a) := fetch_keeps Eq.refl n a

theorem require_looks (c : Bool) : Looks (Work.require c) := require_keeps Eq.refl c

theorem expect_looks (v tag : UInt32) : Looks (expect v tag) :=
  .bind (require_looks _) fun _ => .bind (fetch_looks _ _) fun _ => require_looks _

theorem head_looks (v : UInt32) : Looks (head v) := by
  unfold head
  split
  · exact .pure Eq.refl _
  · exact .bind (fetch_looks _ _) fun _ => .pure Eq.refl _

theorem unboxWord_looks (tag v : UInt32) : Looks (unboxWord tag v) :=
  .bind (expect_looks _ _) fun _ => .bind (fetch_looks _ _) fun _ => .pure Eq.refl _

theorem stringLen_looks (v : UInt32) : Looks (stringLen v) :=
  .bind (expect_looks _ _) fun _ => .bind (fetch_looks _ _) fun _ => .pure Eq.refl _

theorem stringBytes_looks (v : UInt32) : Looks (stringBytes v) :=
  .bind (expect_looks _ _) fun _ => .pure Eq.refl _

theorem slot_looks (array index : UInt32) : Looks (slot array index) :=
  .bind (require_looks _) fun _ => .bind (fetch_looks _ _) fun _ =>
    .bind (require_looks _) fun _ => .pure Eq.refl _

theorem arrayGet_looks (array index : UInt32) : Looks (arrayGet array index) :=
  .bind (slot_looks _ _) fun _ => .bind (fetch_looks _ _) fun _ => .pure Eq.refl _

end GuestHost.Support.Work
