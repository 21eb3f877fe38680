import GuestHost.Error
import Std.Data.ExtTreeMap

/-! Byte buffers that host and guest share by handle. A table is a finite map from
handles to byte strings together with the handle it issued last. -/

namespace GuestHost

/-- The largest handle. -/
def Handle.last : Handle := 2147483647

/-- The cyclic successor on the positive handles. -/
def Handle.succ (h : Handle) : Handle := if h = Handle.last then 1 else h + 1

theorem Handle.succ_nonneg {h : Handle} (nonneg : 0 ≤ h.toInt) : 0 ≤ h.succ.toInt := by
  rw [Handle.succ]
  split
  · decide
  · next other =>
      have below : h.toInt ≠ 2147483647 := fun same => other (Int32.toInt_inj.mp same)
      have bound := Int32.toInt_le h
      change h.toInt ≤ 2147483647 at bound
      have one : (1 : Int32).toInt = 1 := rfl
      rw [Int32.toInt_add, one, Int.bmod_eq_of_le] <;> omega

/-- Live buffers, and the handle issued last (zero before the first). -/
structure Buffers where
  issued : Handle := 0
  live : Std.ExtTreeMap Handle ByteArray := {}
  nonneg : 0 ≤ issued.toInt := by decide

namespace Buffers

/-- No buffers, and no handle issued. -/
def empty : Buffers := {}

/-- The first handle after `h`, in cyclic order, that is not live; at most `fuel`
live ones are passed over. -/
def freeAfter (live : Std.ExtTreeMap Handle ByteArray) : Nat → Handle → Handle
  | 0, h => h.succ
  | fuel + 1, h => if h.succ ∈ live then freeAfter live fuel h.succ else h.succ

theorem freeAfter_nonneg (live : Std.ExtTreeMap Handle ByteArray) (n : Nat) {h : Handle}
    (nonneg : 0 ≤ h.toInt) : 0 ≤ (freeAfter live n h).toInt := by
  induction n generalizing h with
  | zero => exact Handle.succ_nonneg nonneg
  | succ n ih =>
      rw [freeAfter]
      split
      · exact ih (Handle.succ_nonneg nonneg)
      · exact Handle.succ_nonneg nonneg

/-- The handle the next insertion issues, if there is one: as many handles are passed
over as can be live. -/
def fresh (t : Buffers) : Handle := freeAfter t.live t.live.size t.issued

theorem fresh_nonneg (t : Buffers) : 0 ≤ t.fresh.toInt := freeAfter_nonneg t.live t.live.size t.nonneg

/-- Stores bytes under a fresh handle. While every positive handle is live the search
for one goes on forever, so there is no answer. -/
def insert (t : Buffers) (bytes : ByteArray) : Option (Handle × Buffers) :=
  let h := t.fresh
  if h ∈ t.live then none else some (h, ⟨h, t.live.insert h bytes, t.fresh_nonneg⟩)

/-- The bytes under a live handle. -/
def get (t : Buffers) (h : Handle) : Except Error ByteArray :=
  match t.live[h]? with
  | some bytes => .ok bytes
  | none => .error (.invalidBuffer h)

/-- Replaces the bytes under a live handle by a function of them. -/
def modify (t : Buffers) (h : Handle) (f : ByteArray → ByteArray) : Buffers :=
  { t with live := t.live.modify h f }

/-- Removes a live handle and returns its bytes. -/
def take (t : Buffers) (h : Handle) : Except Error ByteArray × Buffers :=
  match t.live[h]? with
  | some bytes => (.ok bytes, { t with live := t.live.erase h })
  | none => (.error (.invalidBuffer h), t)

/-- The number of live buffers. -/
def size (t : Buffers) : Nat := t.live.size

end Buffers

end GuestHost
