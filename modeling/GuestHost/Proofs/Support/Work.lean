import GuestHost.Proofs.Support.Place

/-! What the support module's functions do to its space, one definition for each. They
follow the code step by step, with words that wrap and with every way to fail. -/

namespace GuestHost.Support

open Machine

/-- Work on the module's space, which keeps what was done even if the work fails. -/
abbrev Work (α : Type) := ExceptT Failure (StateM Space) α

namespace Work

theorem bind_apply {α β : Type} (first : Work α) (rest : α → Work β) (x : Space) :
    (first >>= rest) x =
      match first x with
      | (.ok a, y) => rest a y
      | (.error e, y) => (.error e, y) := by
  change ExceptT.bindCont rest (first x).1 (first x).2 = _
  rcases first x with ⟨_ | _, _⟩
  · rfl
  · rfl

/-- Work that begins well goes on with what its first part left. -/
theorem bind_eq {α β : Type} {first : Work α} {rest : α → Work β} {x y : Space} {a : α}
    (h : first x = (.ok a, y)) : (first >>= rest) x = rest a y := by
  rw [bind_apply, h]

/-- Work that fails at once goes no further. -/
theorem bind_error {α β : Type} {first : Work α} {rest : α → Work β} {x y : Space} {e : Failure}
    (h : first x = (.error e, y)) : (first >>= rest) x = (.error e, y) := by
  rw [bind_apply, h]

/-- Work that succeeds succeeds in both its parts. -/
theorem bind_eq_ok {α β : Type} {first : Work α} {rest : α → Work β} {x z : Space} {b : β}
    (h : (first >>= rest) x = (.ok b, z)) : ∃ a y, first x = (.ok a, y) ∧ rest a y = (.ok b, z) := by
  rw [bind_apply] at h
  split at h
  · next a y began => exact ⟨a, y, began, h⟩
  · cases h

/-! ## Operators -/

def trap {α : Type} (t : Trap) : Work α := throw (.trap t)

/-- The word of `n` bytes at an address. -/
def fetch (n a : Nat) : Work Nat := fun x =>
  match x.memory.read? a n with
  | some bs => (.ok (bytesWord bs), x)
  | none => (.error (.trap .memoryBounds), x)

theorem fetch_eq_ok {n a w : Nat} {x y : Space} (h : fetch n a x = (.ok w, y)) : x = y := by
  rw [fetch] at h
  split at h
  · cases h
    rfl
  · cases h

def write (a : Nat) (bs : List UInt8) : Work Unit := fun x =>
  match x.memory.write? a bs with
  | some memory => (.ok (), { x with memory })
  | none => (.error (.trap .memoryBounds), x)

/-- One more page, or a trap if there may be no more. -/
def grow : Work Unit := fun x =>
  match x.memory.grow? 1 with
  | some memory => (.ok (), { x with memory })
  | none => (.error (.trap .unreachable), x)

theorem grow_eq_ok {x y : Space} (h : grow x = (.ok (), y)) :
    x.memory.pages < x.memory.bound ∧
      y = { x with memory := { x.memory with pages := x.memory.pages + 1 } } := by
  unfold grow Memory.grow? at h
  split at h
  · next found =>
      split at found
      · next fits =>
          cases found
          cases h
          exact ⟨fits, rfl⟩
      · cases found
  · cases h

/-- The size of the memory as a word, which holds no more than 65535 pages. -/
def size : Work UInt32 := fun x => (.ok (UInt32.ofNat x.memory.pages <<< 16), x)

theorem size_eq_ok {x y : Space} {w : UInt32} (h : size x = (.ok w, y)) :
    w = UInt32.ofNat x.memory.pages <<< 16 ∧ x = y := by
  rw [size, Prod.mk.injEq, Except.ok.injEq] at h
  exact ⟨h.1.symm, h.2⟩

def top : Work UInt32 := fun x => (.ok x.top, x)

def setTop (w : UInt32) : Work Unit := fun x => (.ok (), { x with top := w })

/-- Goes on only if the condition holds. -/
def require (c : Bool) : Work Unit := if c then return () else trap .unreachable

theorem require_eq_ok {c : Bool} {x y : Space} (h : require c x = (.ok (), y)) : x = y := by
  rw [require] at h
  split at h
  · cases h
    rfl
  · cases h

/-! ## Capabilities -/

/-- A fresh buffer. A search for a handle that never ends counts as a trap. -/
def bufferNew (n : UInt32) : Work UInt32 := fun x =>
  if n.toInt32 < 0 then (.error (.host (.invalidLength n.toInt32)), x)
  else
    match x.buffers.insert ⟨Array.replicate n.toInt32.toInt.toNat 0⟩ with
    | some (buffer, buffers) => (.ok buffer.toUInt32, { x with buffers })
    | none => (.error (.trap .unreachable), x)

def bufferSet (buffer index w : UInt32) : Work Unit := fun x =>
  match x.buffers.get buffer.toInt32 with
  | .error e => (.error (.host e), x)
  | .ok bytes =>
    if Capability.inRange index.toInt32 bytes.size then
      let set (bytes : ByteArray) := bytes.set! index.toInt32.toInt.toNat w.toUInt8
      (.ok (), { x with buffers := x.buffers.modify buffer.toInt32 set })
    else (.error (.host (.bufferIndex buffer.toInt32 index.toInt32)), x)

def bufferGet (buffer index : UInt32) : Work UInt32 := fun x =>
  match x.buffers.get buffer.toInt32 with
  | .error e => (.error (.host e), x)
  | .ok bytes =>
    if Capability.inRange index.toInt32 bytes.size then
      (.ok (bytes[index.toInt32.toInt.toNat]?.getD 0).toUInt32, x)
    else (.error (.host (.bufferIndex buffer.toInt32 index.toInt32)), x)

def bufferSize (buffer : UInt32) : Work UInt32 := fun x =>
  match x.buffers.get buffer.toInt32 with
  | .error e => (.error (.host e), x)
  | .ok bytes =>
    if (bytes.size : Int) ≤ Int32.maxValue.toInt then (.ok (UInt32.ofNat bytes.size), x)
    else (.error (.host (.invalidBuffer buffer.toInt32)), x)

/-! ## Functions -/

/-- Pages are added one by one until memory reaches an address. The number bounds the
pages that may still be added. -/
def reachWithin (last : UInt32) : Nat → Work Unit
  | 0 => do
    if last ≤ (← size) then return ()
    else
      grow
      return ()
  | n + 1 => do
    if last ≤ (← size) then return ()
    else
      grow
      reachWithin last n

def reach (last : UInt32) : Work Unit := fun x =>
  reachWithin last (x.memory.bound - x.memory.pages) x

/-- The next multiple of eight. -/
def aligned (w : UInt32) : UInt32 := (w + 7) &&& 0xFFFFFFF8

def alloc (size : UInt32) : Work UInt32 := do
  let pointer := aligned (← top)
  reach (pointer + size)
  setTop (pointer + size)
  return pointer

def box (tag length : UInt32) : Work UInt32 := do
  let v ← alloc (length + 8)
  write v.toNat (wordBytes 4 tag.toNat)
  write (v.toNat + 4) (wordBytes 4 length.toNat)
  return v

def expect (v tag : UInt32) : Work Unit := do
  require (v != 0)
  let w ← fetch 4 v.toNat
  require (UInt32.ofNat w == tag)

theorem expect_eq_ok {v tag : UInt32} {x y : Space} (h : expect v tag x = (.ok (), y)) : x = y := by
  obtain ⟨_, _, some_v, h⟩ := bind_eq_ok h
  obtain ⟨_, _, fetched, same⟩ := bind_eq_ok h
  rw [require_eq_ok some_v, fetch_eq_ok fetched, require_eq_ok same]

/-- The first word of what is referred to; that of nil is zero. -/
def head (v : UInt32) : Work UInt32 := do
  if v = 0 then return 0
  else return UInt32.ofNat (← fetch 4 v.toNat)

/-- A box with a tag and a word of eight bytes. -/
def boxWord (tag : UInt32) (n : UInt64) : Work UInt32 := do
  let v ← box tag 8
  write (v.toNat + 8) (wordBytes 8 n.toNat)
  return v

/-- The word of eight bytes in a box with a tag. -/
def unboxWord (tag v : UInt32) : Work UInt64 := do
  expect v tag
  return UInt64.ofNat (← fetch 8 (v.toNat + 8))

def stringNew (length : UInt32) : Work UInt32 := box 4 length

def stringBytes (v : UInt32) : Work UInt32 := do
  expect v 4
  return v + 8

def stringLen (v : UInt32) : Work UInt32 := do
  expect v 4
  return UInt32.ofNat (← fetch 4 (v.toNat + 4))

/-- Copies `n` bytes of a buffer, from an index on, into a string. -/
def copyIn (buffer v : UInt32) : Nat → UInt32 → Work Unit
  | 0, _ => return ()
  | n + 1, i => do
    let b ← bufferGet buffer i
    write ((v + i).toNat + 8) (wordBytes 1 b.toNat)
    copyIn buffer v n (i + 1)

def boxString (buffer : UInt32) : Work UInt32 := do
  let length ← bufferSize buffer
  let v ← stringNew length
  copyIn buffer v length.toNat 0
  return v

/-- Copies `n` bytes of a string, from an index on, into a buffer. -/
def copyOut (v buffer : UInt32) : Nat → UInt32 → Work Unit
  | 0, _ => return ()
  | n + 1, i => do
    let b ← fetch 1 ((v + i).toNat + 8)
    bufferSet buffer i (UInt32.ofNat b)
    copyOut v buffer n (i + 1)

def toHostString (v : UInt32) : Work UInt32 := do
  expect v 4
  let length := UInt32.ofNat (← fetch 4 (v.toNat + 4))
  let buffer ← bufferNew length
  copyOut v buffer length.toNat 0
  return buffer

/-- A string is to be copied to the host, and every handle is live. The search for one never ends. -/
def Starved (v : UInt32) (x : Space) : Prop :=
  ∃ a y, expect v 4 x = (.ok a, y) ∧ ∃ length z, fetch 4 (v.toNat + 4) y = (.ok length, z) ∧
    ¬ (UInt32.ofNat length).toInt32 < 0 ∧ z.buffers.fresh ∈ z.buffers.live

theorem Starved.full {v : UInt32} {x : Space} (h : Starved v x) : x.buffers.fresh ∈ x.buffers.live := by
  obtain ⟨_, y, expected, _, z, fetched, -, full⟩ := h
  rwa [expect_eq_ok expected, fetch_eq_ok fetched]

/-- The address of an array's element. -/
def slot (array index : UInt32) : Work UInt32 := do
  require (array != 0)
  let length := UInt32.ofNat (← fetch 4 array.toNat)
  require (index < length)
  return array + 4 + index <<< (2 : UInt32)

def arrayCreate (length : UInt32) : Work UInt32 := do
  let array ← alloc (4 + length <<< (2 : UInt32))
  write array.toNat (wordBytes 4 length.toNat)
  return array

def arraySet (array index v : UInt32) : Work Unit := do
  let a ← slot array index
  write a.toNat (wordBytes 4 v.toNat)

def arrayGet (array index : UInt32) : Work UInt32 := do
  let a ← slot array index
  return UInt32.ofNat (← fetch 4 a.toNat)

end Work

end GuestHost.Support
