import GuestHost.Proofs.Support.Calls
import GuestHost.Proofs.Support.Strings

/-! What the module's functions leave of their space, whatever memory holds. Only copying a
string to the host touches the buffers. -/

namespace GuestHost

namespace Machine.Memory

/-- The word at an address, if all of it lies inside. -/
def word? (m : Memory) (a : Nat) : Option UInt32 := (m.read? a 4).map fun bs => UInt32.ofNat (bytesWord bs)

theorem read?_eq_none_iff {m : Memory} {a n : Nat} : m.read? a n = none ↔ m.size < a + n := by
  rw [read?]
  split
  · next inside => simp only [reduceCtorEq, false_iff, Nat.not_lt, inside]
  · next outside => simp only [Nat.lt_of_not_le outside]

/-- What is read are the bytes that memory holds there. -/
theorem read?_eq_some {m : Memory} {a n : Nat} {bs : List UInt8} (h : m.read? a n = some bs) :
    a + n ≤ m.size ∧ bs.length = n ∧ m.Holds a bs := by
  rw [read?] at h
  split at h
  · next inside =>
      cases h
      exact ⟨inside, by simp, holds_range m a n⟩
  · cases h

end Machine.Memory

namespace Support

open Machine

namespace Work

variable {x : Space}

/-! ## Functions that write to memory and hand it out -/

/-- A relation between what is found and what is left that is kept wherever memory is written to
and wherever it is handed out. -/
structure Frame (R : Space → Space → Prop) : Prop where
  refl : ∀ x, R x x
  trans : ∀ {x y z}, R x y → R y z → R x z
  write : ∀ a bs, Keeps R (Work.write a bs)
  alloc : ∀ n, Keeps R (Work.alloc n)

theorem bufferGet_looks (buffer index : UInt32) : Looks (bufferGet buffer index) := by
  intro x
  rw [bufferGet]
  split
  · rfl
  · split <;> rfl

theorem bufferSize_looks (buffer : UInt32) : Looks (bufferSize buffer) := by
  intro x
  rw [bufferSize]
  split
  · rfl
  · split <;> rfl

namespace Frame

variable {R : Space → Space → Prop} (h : Frame R)

include h

theorem pure {α : Type} (a : α) : Keeps R (Pure.pure a : Work α) := .pure h.refl a

theorem bind {α β : Type} {first : Work α} {rest : α → Work β} (kept : Keeps R first)
    (kept' : ∀ a, Keeps R (rest a)) : Keeps R (first >>= rest) :=
  Keeps.bind (R := R) h.trans kept kept'

theorem looks {α : Type} {work : Work α} (looks : Looks work) : Keeps R work := by
  intro x
  rw [← looks x]
  exact h.refl x

theorem box (tag length : UInt32) : Keeps R (Work.box tag length) :=
  h.bind (h.alloc _) fun _ => h.bind (h.write _ _) fun _ => h.bind (h.write _ _) fun _ => h.pure _

theorem boxWord (tag : UInt32) (n : UInt64) : Keeps R (Work.boxWord tag n) :=
  h.bind (h.box _ _) fun _ => h.bind (h.write _ _) fun _ => h.pure _

theorem copyIn (buffer v : UInt32) (n : Nat) (i : UInt32) : Keeps R (Work.copyIn buffer v n i) := by
  induction n generalizing i with
  | zero => exact h.pure _
  | succ n ih =>
      exact h.bind (h.looks (bufferGet_looks _ _)) fun _ => h.bind (h.write _ _) fun _ => ih (i + 1)

theorem boxString (buffer : UInt32) : Keeps R (Work.boxString buffer) :=
  h.bind (h.looks (bufferSize_looks _)) fun _ => h.bind (h.box _ _) fun _ =>
    h.bind (h.copyIn _ _ _ _) fun _ => h.pure _

theorem arrayCreate (n : UInt32) : Keeps R (Work.arrayCreate n) :=
  h.bind (h.alloc _) fun _ => h.bind (h.write _ _) fun _ => h.pure _

theorem arraySet (array index v : UInt32) : Keeps R (Work.arraySet array index v) :=
  h.bind (h.looks (slot_looks _ _)) fun _ => h.write _ _

/-- Only copying a string to the host does more than write to memory and hand it out. -/
theorem call {c : Call} (others : ∀ v, c ≠ .toHostString v) : Keeps R c.work := by
  cases c with
  | alloc n => exact h.alloc n
  | boxInteger n => exact h.boxWord 2 n
  | boxNumber y => exact h.boxWord 3 y.bits
  | boxString b => exact h.boxString b
  | stringNew n => exact h.box 4 n
  | arrayCreate n => exact h.arrayCreate n
  | arraySet a i v => exact h.arraySet a i v
  | arrayGet a i => exact h.looks (arrayGet_looks a i)
  | arraySize v => exact h.looks (head_looks v)
  | getTypeNum v => exact h.looks (head_looks v)
  | stringLen v => exact h.looks (stringLen_looks v)
  | stringBytes v => exact h.looks (stringBytes_looks v)
  | toHostInteger v => exact h.looks (unboxWord_looks 2 v)
  | toHostNumber v => exact h.looks (unboxWord_looks 3 v)
  | toHostString v => exact absurd rfl (others v)

end Frame

/-! ## The buffers -/

/-- The work leaves the buffers as they were. -/
abbrev Spares {α : Type} (work : Work α) : Prop := Keeps (fun x y => y.buffers = x.buffers) work

theorem Spares.bind {α β : Type} {first : Work α} {rest : α → Work β} (h : Spares first)
    (h' : ∀ a, Spares (rest a)) : Spares (first >>= rest) :=
  Keeps.bind (R := fun x y => y.buffers = x.buffers) (fun same same' => same'.trans same) h h'

theorem pure_spares {α : Type} (a : α) : Spares (Pure.pure a : Work α) := fun _ => rfl

theorem write_spares (a : Nat) (bs : List UInt8) : Spares (write a bs) := by
  intro x
  rw [write]
  split <;> rfl

theorem grow_spares : Spares grow := by
  intro x
  rw [grow]
  split <;> rfl

theorem reachWithin_spares (last : UInt32) (n : Nat) : Spares (reachWithin last n) := by
  induction n with
  | zero =>
      refine .bind (fun _ => rfl) fun _ => ?_
      split
      · exact pure_spares _
      · exact .bind grow_spares fun _ => pure_spares _
  | succ n ih =>
      refine .bind (fun _ => rfl) fun _ => ?_
      split
      · exact pure_spares _
      · exact .bind grow_spares fun _ => ih

theorem alloc_spares (n : UInt32) : Spares (alloc n) :=
  .bind (fun _ => rfl) fun _ => .bind (fun x => reachWithin_spares _ _ x) fun _ =>
    .bind (fun _ => rfl) fun _ => pure_spares _

theorem frame_spares : Frame fun x y => y.buffers = x.buffers where
  refl := fun _ => rfl
  trans := fun same same' => same'.trans same
  write := write_spares
  alloc := alloc_spares

end Work

/-- Only copying a string to the host touches the buffers. -/
theorem Call.spares {c : Call} (others : ∀ v, c ≠ .toHostString v) (x : Space) :
    (c.work x).2.buffers = x.buffers :=
  Work.frame_spares.call others x

/-! ## Copying a string to the host -/

namespace Work

variable {x : Space}

/-- Words and bytes that are fetched lie inside memory. -/
theorem fetch_cases (n a : Nat) (x : Space) :
    (∃ bs, x.memory.read? a n = some bs ∧ fetch n a x = (.ok (bytesWord bs), x)) ∨
      fetch n a x = (.error (.trap .memoryBounds), x) := by
  rw [fetch]
  cases found : x.memory.read? a n with
  | some bs => exact .inl ⟨bs, rfl, rfl⟩
  | none => exact .inr rfl

theorem fetch_word {a : Nat} {w : UInt32} (held : x.memory.word? a = some w) :
    ∃ n, fetch 4 a x = (.ok n, x) ∧ UInt32.ofNat n = w := by
  obtain ⟨bs, read, rfl⟩ := Option.map_eq_some_iff.mp held
  exact ⟨_, by rw [fetch, read], rfl⟩

/-- The loop fills the buffer, with every byte in memory, or stops at one that is not. -/
theorem copyOut_cases (v : UInt32) (n : Nat) (i : UInt32) (bytes : List UInt8)
    (length : bytes.length = i.toNat + n) (small : bytes.length < 2147483648) :
    ∃ bytes', (copyOut v x.buffers.fresh.toUInt32 n i (x.withBuffer bytes) = (.ok (), x.withBuffer bytes') ∧
        ∀ j < bytes.length, i.toNat ≤ j → (v + UInt32.ofNat j).toNat + 8 < x.memory.size) ∨
      copyOut v x.buffers.fresh.toUInt32 n i (x.withBuffer bytes) =
        (.error (.trap .memoryBounds), x.withBuffer bytes') := by
  induction n generalizing i bytes with
  | zero => exact ⟨bytes, .inl ⟨rfl, fun j below above => by omega⟩⟩
  | succ n ih =>
      rcases fetch_cases 1 ((v + i).toNat + 8) (x.withBuffer bytes) with
        ⟨bs, found, fetched⟩ | failed
      · have next : (i + 1).toNat = i.toNat + 1 := by
          have one : (1 : UInt32).toNat = 1 := rfl
          rw [UInt32.toNat_add, one, Nat.mod_eq_of_lt (by omega)]
        let bytes₁ := bytes.set i.toNat (UInt32.ofNat (bytesWord bs)).toUInt8
        have length₁ : bytes₁.length = bytes.length := List.length_set
        have rest := ih (i + 1) bytes₁ (by omega) (by omega)
        rw [length₁] at rest
        rw [copyOut, bind_eq fetched, bind_eq (bufferSet_eq (by omega) (by omega))]
        obtain ⟨bytes', ⟨copied, inside⟩ | stopped⟩ := rest
        · refine ⟨bytes', .inl ⟨copied, fun j below above => ?_⟩⟩
          by_cases here : j = i.toNat
          · rw [here, UInt32.ofNat_toNat]
            exact (Memory.read?_eq_some found).1
          · exact inside j below (by omega)
        · exact ⟨bytes', .inr stopped⟩
      · exact ⟨bytes, .inr (by rw [copyOut, bind_error failed])⟩

/-- What becomes of a string that is copied to the host: it is refused before there is a
buffer, or its bytes come to be in a fresh one, or some of them are missing, and the buffer
remains all the same. -/
inductive Copied (x : Space) : Except Failure UInt32 × Space → Prop
  | refused (e : Failure) : Copied x (.error e, x)
  | done (free : x.buffers.fresh ∉ x.buffers.live) (bytes : List UInt8) :
      Copied x (.ok x.buffers.fresh.toUInt32, x.withBuffer bytes)
  | torn (free : x.buffers.fresh ∉ x.buffers.live) (bytes : List UInt8) :
      Copied x (.error (.trap .memoryBounds), x.withBuffer bytes)

theorem expect_cases (v tag : UInt32) (x : Space) :
    (∃ e, expect v tag x = (.error e, x)) ∨ expect v tag x = (.ok (), x) := by
  rw [expect]
  by_cases nil : v = 0
  · exact .inl ⟨_, bind_error (require_error (by simpa using nil))⟩
  · rw [bind_eq (require_eq (by simpa using nil))]
    rcases fetch_cases 4 v.toNat x with ⟨bs, -, fetched⟩ | failed
    · rw [bind_eq fetched]
      by_cases same : UInt32.ofNat (bytesWord bs) = tag
      · exact .inr (require_eq (by simpa using same))
      · exact .inl ⟨_, require_error (by simpa using same)⟩
    · exact .inl ⟨_, bind_error failed⟩

/-- A length is refused, or that many bytes are copied as far as they are there. -/
theorem copied_of_length (v n : UInt32) : Copied x ((do
      let buffer ← bufferNew n
      copyOut v buffer n.toNat 0
      return buffer : Work UInt32) x) := by
  by_cases small : n.toNat < 2147483648
  · by_cases free : x.buffers.fresh ∈ x.buffers.live
    · rw [bind_error (bufferNew_full small free)]
      exact .refused _
    rw [bind_eq (bufferNew_eq small free)]
    have filled : (List.replicate n.toNat (0 : UInt8)).length = (0 : UInt32).toNat + n.toNat := by simp
    obtain ⟨bytes, ⟨copied, -⟩ | stopped⟩ :=
      copyOut_cases (x := x) v n.toNat 0 _ filled (by simpa using small)
    · rw [bind_eq copied]
      exact .done free bytes
    · rw [bind_error stopped]
      exact .torn free bytes
  · rw [bind_error (bufferNew_large (Nat.le_of_not_lt small))]
    exact .refused _

theorem toHostString_copied (v : UInt32) (x : Space) : Copied x (toHostString v x) := by
  rw [toHostString]
  rcases expect_cases v 4 x with ⟨e, failed⟩ | expected
  · rw [bind_error failed]
    exact .refused e
  · rw [bind_eq expected]
    rcases fetch_cases 4 (v.toNat + 4) x with ⟨bs, -, fetched⟩ | failed
    · rw [bind_eq fetched]
      exact copied_of_length v _
    · rw [bind_error failed]
      exact .refused _

end Work

end Support

end GuestHost
