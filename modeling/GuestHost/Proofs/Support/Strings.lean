import GuestHost.Proofs.Handles
import GuestHost.Proofs.Support.Reading

/-! What the functions that copy strings come to. Both loops go through the indices below
the length, one byte at a time. -/

namespace GuestHost.Support.Work

open Machine Space

variable {x : Space}

/-! ## Words as indices -/

theorem toInt_toInt32 {w : UInt32} (h : w.toNat < 2147483648) : w.toInt32.toInt = w.toNat := by
  rw [← Int32.toInt_toBitVec, UInt32.toBitVec_toInt32, BitVec.toInt_eq_toNat_of_lt]
  · rfl
  · change 2 * w.toNat < 2 ^ 32
    omega

/-- A word counts as a negative one from the middle on. -/
theorem toInt32_neg_iff {w : UInt32} : w.toInt32 < 0 ↔ 2147483648 ≤ w.toNat := by
  have zero : (0 : Int32).toInt = 0 := rfl
  have below := w.toNat_lt
  rw [Int32.lt_iff_toInt_lt, zero]
  by_cases small : w.toNat < 2147483648
  · rw [toInt_toInt32 small]
    omega
  · rw [← Int32.toInt_toBitVec, UInt32.toBitVec_toInt32, BitVec.toInt_eq_toNat_cond,
      if_neg (by change ¬ 2 * w.toNat < 2 ^ 32; omega)]
    change (w.toNat : Int) - (2 ^ 32 : Nat) < 0 ↔ _
    omega

theorem inRange_eq_true {w : UInt32} {n : Nat} (h : w.toNat < n) (small : w.toNat < 2147483648) :
    Capability.inRange w.toInt32 n = true := by
  have zero : (0 : Int32).toInt = 0 := rfl
  rw [Capability.inRange, Bool.and_eq_true, decide_eq_true_eq, decide_eq_true_eq,
    Int32.le_iff_toInt_le, zero, toInt_toInt32 small]
  omega

theorem bufferGet_eq {buffer index : UInt32} {bytes : ByteArray} {b : UInt8}
    (live : x.buffers.get buffer.toInt32 = .ok bytes) (small : index.toNat < 2147483648)
    (found : bytes[index.toNat]? = some b) : bufferGet buffer index x = (.ok b.toUInt32, x) := by
  obtain ⟨inside, rfl⟩ := getElem?_eq_some_iff.mp found
  rw [bufferGet, live]
  dsimp only
  rw [if_pos (inRange_eq_true inside small), toInt_toInt32 small, Int.toNat_natCast, found,
    Option.getD_some]

theorem bufferSize_eq {buffer : UInt32} {bytes : ByteArray}
    (live : x.buffers.get buffer.toInt32 = .ok bytes) (small : bytes.size < 2147483648) :
    bufferSize buffer x = (.ok (UInt32.ofNat bytes.size), x) := by
  have most : Int32.maxValue.toInt = 2147483647 := rfl
  rw [bufferSize, live]
  dsimp only
  rw [if_pos (by omega)]

/-! ## From a buffer to a string -/

/-- The loop appends the bytes that are left to those that the string already has. -/
theorem copyIn_eq (buffer v : UInt32) (start : List UInt8) (size : Nat) (bs done : List UInt8)
    (i : UInt32) (live : x.buffers.get buffer.toInt32 = .ok ⟨(done ++ bs).toArray⟩)
    (index : i.toNat = done.length) (small : (done ++ bs).length < 2147483648)
    (header : start.length = 8) (address : v.toNat = x.next)
    (inside : 8 + (done ++ bs).length ≤ size) (fits : x.next + size ≤ limit) :
    copyIn buffer v bs.length i (x.laid size (start ++ done)) =
      (.ok (), x.laid size (start ++ (done ++ bs))) := by
  induction bs generalizing done i with
  | nil =>
      rw [List.append_nil]
      rfl
  | cons b bs ih =>
      rw [List.length_append, List.length_cons] at small inside
      unfold limit at fits
      have found : (ByteArray.mk (done ++ b :: bs).toArray)[i.toNat]? = some b := by
        change (done ++ b :: bs).toArray[i.toNat]? = some b
        simp [index]
      have one : (1 : UInt32).toNat = 1 := rfl
      have byte : wordBytes 1 b.toUInt32.toNat = [b] := by
        rw [UInt8.toNat_toUInt32, wordBytes_one]
      have place : (v + i).toNat + 8 = x.next + (start ++ done).length := by
        rw [UInt32.toNat_add, List.length_append, address, index, Nat.mod_eq_of_lt (by omega)]
        omega
      have rest : done ++ b :: bs = (done ++ [b]) ++ bs := by simp
      rw [List.length_cons, copyIn,
        bind_eq (bufferGet_eq (x := x.laid size (start ++ done)) live (by omega) found), byte,
        bind_eq (write_laid place (by simp; omega)), List.append_assoc, rest]
      refine ih (done ++ [b]) (i + 1) (by rwa [← rest]) ?_ (by simp; omega) (by simp; omega)
      rw [UInt32.toNat_add, one, List.length_append, index, Nat.mod_eq_of_lt (by omega)]
      rfl

/-- The bytes of a string box. -/
def stringBox (bs : List UInt8) : List UInt8 := header 4 (UInt32.ofNat bs.length) ++ bs

theorem boxString_eq {buffer : UInt32} {bytes : Array UInt8}
    (live : x.buffers.get buffer.toInt32 = .ok ⟨bytes⟩) (small : bytes.size < 2147483648)
    (room : x.Room (8 + bytes.size)) :
    boxString buffer x =
      (.ok (UInt32.ofNat x.next), x.laid (8 + bytes.size) (stringBox bytes.toList)) := by
  have length : (UInt32.ofNat bytes.size).toNat = bytes.size := by
    rw [UInt32.toNat_ofNat', Nat.mod_eq_of_lt (by omega)]
  have room' : x.Room (8 + (UInt32.ofNat bytes.size).toNat) := by rwa [length]
  have copied := copyIn_eq buffer (UInt32.ofNat x.next) (header 4 (UInt32.ofNat bytes.size))
    (8 + bytes.size) bytes.toList [] 0 (x := x)
    (by rwa [List.nil_append, Array.toArray_toList]) rfl (by simpa) (length_header _ _)
    (toNat_next room) (by simp) room.fits
  rw [List.append_nil, List.nil_append, Array.length_toList] at copied
  have sized : bufferSize buffer x = (.ok (UInt32.ofNat bytes.size), x) := bufferSize_eq live small
  rw [boxString, bind_eq sized, stringNew, bind_eq (box_eq room'), length,
    bind_eq copied, stringBox, Array.length_toList]
  rfl

/-! ## From a string to a buffer -/

theorem modify_insert (live : Std.ExtTreeMap Handle ByteArray) (k : Handle) (bytes : ByteArray)
    (f : ByteArray → ByteArray) :
    (live.insert k bytes).modify k f = live.insert k (f bytes) := by
  refine Std.ExtTreeMap.ext_getElem? fun i => ?_
  rw [Std.ExtTreeMap.getElem?_modify, Std.ExtTreeMap.getElem?_insert, Std.ExtTreeMap.getElem?_insert,
    Std.ExtTreeMap.getElem?_insert]
  by_cases same : compare k i = .eq
  · simp [same]
  · simp [same]

theorem bufferSet_eq {index w : UInt32} {bytes : List UInt8}
    (inside : index.toNat < bytes.length) (small : index.toNat < 2147483648) :
    bufferSet x.buffers.fresh.toUInt32 index w (withBuffer x bytes) =
      (.ok (), withBuffer x (bytes.set index.toNat w.toUInt8)) := by
  have live : (withBuffer x bytes).buffers.get x.buffers.fresh = .ok ⟨bytes.toArray⟩ := by
    simp [withBuffer, Buffers.get]
  have handle : x.buffers.fresh.toUInt32.toInt32 = x.buffers.fresh := by simp
  have stored : (ByteArray.mk bytes.toArray).set! index.toNat w.toUInt8 =
      ⟨(bytes.set index.toNat w.toUInt8).toArray⟩ :=
    congrArg ByteArray.mk (List.setIfInBounds_toArray ..)
  rw [bufferSet, handle, live]
  dsimp only
  rw [if_pos (inRange_eq_true (by simpa) small), toInt_toInt32 small, Int.toNat_natCast, Buffers.modify,
    withBuffer]
  dsimp only
  rw [modify_insert, stored]
  rfl

/-- The loop replaces the bytes that are left of a buffer by those of the string. -/
theorem copyOut_eq (v : UInt32) (bs done : List UInt8) (i : UInt32)
    (held : x.memory.Holds (v.toNat + 8) (done ++ bs)) (index : i.toNat = done.length)
    (small : (done ++ bs).length < 2147483648) (inside : v.toNat + 8 + (done ++ bs).length ≤ x.memory.size)
    (fits : v.toNat + 8 + (done ++ bs).length ≤ UInt32.size) (rest : List UInt8) (same : rest.length = bs.length) :
    copyOut v x.buffers.fresh.toUInt32 bs.length i (withBuffer x (done ++ rest)) =
      (.ok (), withBuffer x (done ++ bs)) := by
  induction bs generalizing done i rest with
  | nil =>
      rw [List.length_eq_zero_iff.mp same]
      rfl
  | cons b bs ih =>
      obtain ⟨r, rest, rfl⟩ := List.exists_cons_of_length_eq_add_one same
      rw [List.length_append, List.length_cons] at small inside fits
      unfold UInt32.size at fits
      have one : (1 : UInt32).toNat = 1 := rfl
      have place : (v + i).toNat + 8 = v.toNat + 8 + done.length := by
        rw [UInt32.toNat_add, index, Nat.mod_eq_of_lt (by omega)]
        omega
      have byte : x.memory.Holds ((v + i).toNat + 8) [b] := by
        rw [place]
        rw [← List.singleton_append, ← List.append_assoc] at held
        exact (Memory.holds_append.mp (Memory.holds_append.mp held).1).2
      have next : (i + 1).toNat = (done ++ [b]).length := by
        rw [UInt32.toNat_add, one, List.length_append, index, Nat.mod_eq_of_lt (by omega)]
        rfl
      have word : (UInt32.ofNat (bytesWord [b])).toUInt8 = b := by
        simp [bytesWord]
      have fetched := fetch_eq (n := 1) (x := withBuffer x (done ++ r :: rest)) byte rfl
        (by change _ ≤ x.memory.size; omega)
      rw [List.length_cons, copyOut, bind_eq fetched, bind_eq (bufferSet_eq (by simp [index]) (by omega)),
        word]
      have set : (done ++ r :: rest).set i.toNat b = (done ++ [b]) ++ rest := by
        simp [index]
      have assoc : done ++ b :: bs = (done ++ [b]) ++ bs := by simp
      rw [set, assoc]
      refine ih (done ++ [b]) (i + 1) (by rwa [← assoc]) next (by simp; omega) (by simp; omega) ?_ rest ?_
      · unfold UInt32.size
        simp
        omega
      · simpa using same

theorem bufferNew_eq {n : UInt32} (small : n.toNat < 2147483648) (free : x.buffers.fresh ∉ x.buffers.live) :
    bufferNew n x = (.ok x.buffers.fresh.toUInt32,
      withBuffer x (List.replicate n.toNat 0)) := by
  have positive : ¬ n.toInt32 < 0 := fun negative => Nat.not_lt.mpr (toInt32_neg_iff.mp negative) small
  rw [bufferNew, if_neg positive, toInt_toInt32 small, Int.toNat_natCast, Buffers.insert_of_free free,
    withBuffer, List.toArray_replicate]

/-- Where no handle is free nothing is stored. -/
theorem bufferNew_full {n : UInt32} (small : n.toNat < 2147483648) (full : x.buffers.fresh ∈ x.buffers.live) :
    bufferNew n x = (.error (.trap .unreachable), x) := by
  have positive : ¬ n.toInt32 < 0 := fun negative => Nat.not_lt.mpr (toInt32_neg_iff.mp negative) small
  rw [bufferNew, if_neg positive, Buffers.insert, if_pos full]

/-- A length that does not count as a positive word is refused. -/
theorem bufferNew_large {n : UInt32} (large : 2147483648 ≤ n.toNat) :
    bufferNew n x = (.error (.host (.invalidLength n.toInt32)), x) := by
  rw [bufferNew, if_pos (toInt32_neg_iff.mpr large)]

theorem toHostString_eq {v : UInt32} {bs : List UInt8} (free : x.buffers.fresh ∉ x.buffers.live) (some_v : v ≠ 0)
    (held : x.memory.Holds v.toNat (stringBox bs)) (small : bs.length < 2147483648)
    (inside : v.toNat + 8 + bs.length ≤ x.memory.size) (fits : v.toNat + 8 + bs.length ≤ UInt32.size) :
    toHostString v x =
      (.ok x.buffers.fresh.toUInt32, withBuffer x bs) := by
  have length : (UInt32.ofNat bs.length).toNat = bs.length := by
    rw [UInt32.toNat_ofNat', Nat.mod_eq_of_lt (by omega)]
  obtain ⟨head, bytes⟩ := Memory.holds_append.mp held
  obtain ⟨tag, word⟩ := Memory.holds_append.mp head
  rw [length_header] at bytes
  rw [length_wordBytes] at word
  have copied := copyOut_eq (x := x) v bs [] 0 bytes rfl small inside fits
    (List.replicate bs.length 0) (by simp)
  rw [List.nil_append, List.nil_append] at copied
  rw [toHostString, bind_eq (expect_eq some_v tag (by omega)),
    bind_eq (fetch_eq word (by simp) (by omega)), bytesWord_wordBytes_of_lt (UInt32.toNat_lt _),
    UInt32.ofNat_toNat, bind_eq (bufferNew_eq (by rwa [length]) free), length, bind_eq copied]
  rfl

/-! ## Other buffers -/

/-- Only one buffer may have changed. -/
structure Beside (k : Handle) (x y : Space) : Prop where
  memory : y.memory = x.memory
  top : y.top = x.top
  others : ∀ j, j ≠ k → y.buffers.live[j]? = x.buffers.live[j]?

namespace Beside

variable {k : Handle} {x y z : Space}

theorem refl (x : Space) : Beside k x x := ⟨rfl, rfl, fun _ _ => rfl⟩

theorem trans (h : Beside k x y) (h' : Beside k y z) : Beside k x z :=
  ⟨h'.memory.trans h.memory, h'.top.trans h.top,
    fun j other => (h'.others j other).trans (h.others j other)⟩

end Beside

theorem bufferSet_beside (k : Handle) (index w : UInt32) :
    Keeps (Beside k) (bufferSet k.toUInt32 index w) := by
  intro x
  have handle : k.toUInt32.toInt32 = k := by simp
  rw [bufferSet, handle]
  split
  · exact .refl x
  · split
    · refine ⟨rfl, rfl, fun j other => ?_⟩
      have differ : compare k j ≠ .eq := fun same => other (Std.LawfulEqCmp.eq_of_compare same).symm
      simp [Buffers.modify, Std.ExtTreeMap.getElem?_modify, differ]
    · exact .refl x

theorem copyOut_beside (v : UInt32) (k : Handle) (n : Nat) (i : UInt32) :
    Keeps (Beside k) (copyOut v k.toUInt32 n i) := by
  induction n generalizing i with
  | zero => exact .pure Beside.refl _
  | succ n ih =>
      refine .bind (R := Beside k) Beside.trans (fetch_keeps Beside.refl _ _) fun b => ?_
      exact .bind (R := Beside k) Beside.trans (bufferSet_beside k i _) fun _ => ih (i + 1)

theorem withBuffer_beside (bytes : List UInt8) : Beside x.buffers.fresh x (x.withBuffer bytes) := by
  refine ⟨rfl, rfl, fun j other => ?_⟩
  have differ : compare x.buffers.fresh j ≠ .eq := fun same => other (Std.LawfulEqCmp.eq_of_compare same).symm
  simp [withBuffer, Std.ExtTreeMap.getElem?_insert, differ]

/-- A buffer is stored under a fresh handle, or refused. -/
theorem bufferNew_cases (n : UInt32) (x : Space) :
    (∃ e, bufferNew n x = (.error e, x)) ∨
      ∃ bytes, bufferNew n x = (.ok x.buffers.fresh.toUInt32, x.withBuffer bytes) := by
  rw [bufferNew]
  split
  · exact .inl ⟨_, rfl⟩
  · split
    · next stored =>
        obtain ⟨-, rfl, rfl⟩ := Buffers.insert_eq_some.mp stored
        exact .inr ⟨List.replicate n.toInt32.toInt.toNat 0, by rw [withBuffer, List.toArray_replicate]⟩
    · exact .inl ⟨_, rfl⟩

/-- Copying out writes to the fresh buffer alone, if there is one. -/
theorem copied_beside (v : UInt32) (w : Nat) (x : Space) : Beside x.buffers.fresh x ((do
      let buffer ← bufferNew (UInt32.ofNat w)
      copyOut v buffer (UInt32.ofNat w).toNat 0
      return buffer : Work UInt32) x).2 := by
  have copied (buffer : Handle) : Keeps (Beside buffer) (do
      copyOut v buffer.toUInt32 (UInt32.ofNat w).toNat 0
      return buffer.toUInt32 : Work UInt32) :=
    .bind (R := Beside buffer) Beside.trans (copyOut_beside v buffer _ 0) fun _ => .pure Beside.refl _
  rcases bufferNew_cases (UInt32.ofNat w) x with ⟨e, refused⟩ | ⟨bytes, stored⟩
  · rw [bind_error refused]
    exact .refl x
  · rw [bind_eq stored]
    exact (withBuffer_beside bytes).trans (copied _ _)

theorem fetched_beside (v : UInt32) (x : Space) : Beside x.buffers.fresh x ((do
      let w ← fetch 4 (v.toNat + 4)
      let buffer ← bufferNew (UInt32.ofNat w)
      copyOut v buffer (UInt32.ofNat w).toNat 0
      return buffer : Work UInt32) x).2 :=
  (fetch_looks 4 (v.toNat + 4)).bind_right (.refl x) fun w => copied_beside v w x

/-- Whatever is taken for a string, memory and all buffers but a fresh one stay as they are. -/
theorem toHostString_beside (v : UInt32) (x : Space) :
    Beside x.buffers.fresh x (toHostString v x).2 := by
  unfold toHostString
  exact (expect_looks v 4).bind_right (.refl x) fun _ => fetched_beside v x

end GuestHost.Support.Work
