import GuestHost.Proofs.Machine.Bytes
import GuestHost.Proofs.Support.Work

/-! What the functions that hand out memory come to while there is room: a block at the
next multiple of eight, with bytes written from its start on. -/

namespace GuestHost.Support

open Machine

/-- The bytes that the memory may grow to hold. -/
def limit : Nat := 65535 * 65536

/-- A number within the limit is told by its word. -/
theorem toNat_ofNat_of_le {n : Nat} (h : n ≤ limit) : (UInt32.ofNat n).toNat = n := by
  unfold limit at h
  rw [UInt32.toNat_ofNat', Nat.mod_eq_of_lt (by omega)]

/-- The least multiple of eight that is not below a number. -/
def roundUp (n : Nat) : Nat := (n + 7) / 8 * 8

theorem le_roundUp (n : Nat) : n ≤ roundUp n := by
  unfold roundUp
  omega

theorem roundUp_mod (n : Nat) : roundUp n % 8 = 0 := by
  unfold roundUp
  omega

/-- Clearing the lowest three bits of a word rounds it down to a multiple of eight. -/
theorem and_mask (n : Nat) (h : n < 4294967296) : n &&& 0xFFFFFFF8 = n / 8 * 8 := by
  have mask : 0xFFFFFFF8 = (2 ^ 29 - 1) <<< 3 := rfl
  have down : n / 8 * 8 = (n >>> 3) <<< 3 := by simp [Nat.shiftRight_eq_div_pow, Nat.shiftLeft_eq]
  rw [mask, down]
  refine Nat.eq_of_testBit_eq fun i => ?_
  rw [Nat.testBit_and, Nat.testBit_shiftLeft, Nat.testBit_shiftLeft, Nat.testBit_two_pow_sub_one,
    Nat.testBit_shiftRight]
  by_cases low : i < 3
  · simp [Nat.not_le.mpr low]
  · by_cases high : i < 32
    · rw [Nat.add_sub_cancel' (by omega)]
      simp [show i - 3 < 29 by omega, Nat.le_of_not_lt low]
    · have : n.testBit i = false :=
        Nat.testBit_lt_two_pow (Nat.lt_of_lt_of_le (m := 2 ^ 32) h (Nat.pow_le_pow_right (by omega) (by omega)))
      rw [Nat.add_sub_cancel' (by omega), this]
      simp

theorem toNat_aligned {w : UInt32} (h : roundUp w.toNat ≤ limit) :
    (Work.aligned w).toNat = roundUp w.toNat := by
  have below := le_roundUp w.toNat
  unfold roundUp limit at *
  have seven : (7 : UInt32).toNat = 7 := rfl
  have mask : (0xFFFFFFF8 : UInt32).toNat = 0xFFFFFFF8 := rfl
  rw [Work.aligned, UInt32.toNat_and, UInt32.toNat_add, seven, mask, Nat.mod_eq_of_lt (by omega),
    and_mask _ (by omega)]

/-- The memory with as many pages as it takes to hold everything below an address. -/
def reaching (m : Memory) (last : Nat) : Memory :=
  { m with pages := max m.pages ((last + 65535) / 65536) }

theorem reaching_of_le {m : Memory} {last : Nat} (h : last ≤ m.size) : reaching m last = m := by
  unfold Memory.size Wasm.pageSize at h
  rw [reaching, Nat.max_eq_left (by omega)]

theorem le_size_reaching (m : Memory) (last : Nat) : last ≤ (reaching m last).size := by
  unfold Memory.size Wasm.pageSize reaching
  dsimp only
  omega

theorem size_le_reaching (m : Memory) (last : Nat) : m.size ≤ (reaching m last).size := by
  unfold Memory.size Wasm.pageSize reaching
  dsimp only
  omega

/-- The memory is within what its size as a word can tell, and may grow. -/
structure Growable (m : Memory) : Prop where
  unbounded : m.max = none
  few : m.pages ≤ 65535

theorem Growable.bound {m : Memory} (h : Growable m) : m.bound = 65536 := by
  rw [Memory.bound, h.unbounded]
  rfl

theorem Growable.size_le {m : Memory} (h : Growable m) : m.size ≤ limit := by
  have few := h.few
  unfold Memory.size Wasm.pageSize limit
  omega

theorem Growable.reaching {m : Memory} {last : Nat} (h : Growable m) (fits : last ≤ limit) :
    Growable (reaching m last) where
  unbounded := h.unbounded
  few := by
    have few := h.few
    unfold limit at fits
    unfold Support.reaching
    dsimp only
    omega

theorem Growable.put {m : Memory} {a : Nat} {bs : List UInt8} (h : Growable m) :
    Growable (m.put a bs) where
  unbounded := by rw [Memory.put_max, h.unbounded]
  few := by
    rw [Memory.put_pages]
    exact h.few

namespace Space

/-- One page of zeros, of which nothing below address 16 is ever handed out. -/
def fresh (buffers : Buffers) : Space where
  memory := { pages := 1, max := none }
  top := 16
  buffers := buffers

/-- The start of the next block. -/
def next (x : Space) : Nat := roundUp x.top.toNat

/-- A block of a size is handed out, and bytes are written from its start on. -/
def laid (x : Space) (size : Nat) (bs : List UInt8) : Space where
  memory := (reaching x.memory (x.next + size)).put x.next bs
  top := UInt32.ofNat (x.next + size)
  buffers := x.buffers

def onePageMore (x : Space) : Space :=
  { x with memory := { x.memory with pages := x.memory.pages + 1 } }

/-- A word was written. -/
def withWord (x : Space) (a : Nat) (w : UInt32) : Space :=
  { x with memory := x.memory.put a (wordBytes 4 w.toNat) }

/-- A buffer was stored under the fresh handle, and nothing else changed. -/
def withBuffer (x : Space) (bytes : List UInt8) : Space :=
  { x with
    buffers := ⟨x.buffers.fresh, x.buffers.live.insert x.buffers.fresh ⟨bytes.toArray⟩, x.buffers.fresh_nonneg⟩ }

/-- There is room for a block of a size. -/
structure Room (x : Space) (size : Nat) : Prop where
  growable : Growable x.memory
  fits : x.next + size ≤ limit

end Space

namespace Work

open Space

variable {x : Space}

theorem toNat_shiftLeft_pages {n : Nat} (h : n ≤ 65535) :
    (UInt32.ofNat n <<< (16 : UInt32)).toNat = n * 65536 := by
  have sixteen : (16 : UInt32).toNat % 32 = 16 := rfl
  rw [UInt32.toNat_shiftLeft, sixteen, UInt32.toNat_ofNat', Nat.mod_eq_of_lt (by omega),
    Nat.shiftLeft_eq, Nat.mod_eq_of_lt (by omega)]

theorem reachWithin_inside {last : UInt32} (n : Nat)
    (inside : last ≤ UInt32.ofNat x.memory.pages <<< (16 : UInt32)) :
    reachWithin last n x = (.ok (), x) := by
  cases n with
  | zero =>
      rw [reachWithin, bind_eq (show Work.size x = (.ok _, x) from rfl), if_pos inside]
      rfl
  | succ n =>
      rw [reachWithin, bind_eq (show Work.size x = (.ok _, x) from rfl), if_pos inside]
      rfl

theorem reachWithin_eq {last : UInt32} (n : Nat) (x : Space) (h : Growable x.memory)
    (fits : last.toNat ≤ limit) (spare : x.memory.bound - x.memory.pages ≤ n) :
    reachWithin last n x = (.ok (), { x with memory := reaching x.memory last.toNat }) := by
  have bound := h.bound
  have few := h.few
  have size := toNat_shiftLeft_pages few
  unfold limit at fits
  induction n generalizing x with
  | zero => omega
  | succ n ih =>
      by_cases enough : last ≤ UInt32.ofNat x.memory.pages <<< (16 : UInt32)
      · rw [reachWithin_inside (n + 1) enough]
        rw [UInt32.le_iff_toNat_le, size] at enough
        rw [reaching_of_le (by rwa [Memory.size, Wasm.pageSize])]
      · rw [reachWithin, bind_eq (show Work.size x = (.ok _, x) from rfl), if_neg enough]
        rw [UInt32.le_iff_toNat_le, size] at enough
        have grown : grow x = (.ok (), x.onePageMore) := by
          rw [grow, Memory.grow?, if_pos (by omega)]
          rfl
        have more : x.onePageMore.memory.pages = x.memory.pages + 1 := rfl
        have growable : Growable x.onePageMore.memory := ⟨h.unbounded, by omega⟩
        rw [bind_eq grown, ih x.onePageMore growable (by rw [growable.bound]; omega) growable.bound growable.few
          (toNat_shiftLeft_pages growable.few), reaching, reaching, more]
        rw [show max (x.memory.pages + 1) ((last.toNat + 65535) / 65536) =
          max x.memory.pages ((last.toNat + 65535) / 65536) by omega]
        rfl

/-- Memory is made to reach any address that it may reach. -/
theorem reach_eq {last : UInt32} (h : Growable x.memory) (fits : last.toNat ≤ limit) :
    reach last x = (.ok (), { x with memory := reaching x.memory last.toNat }) :=
  reachWithin_eq _ x h fits (Nat.le_refl _)

theorem alloc_eq {size : UInt32} (room : x.Room size.toNat) :
    alloc size x = (.ok (UInt32.ofNat x.next), x.laid size.toNat []) := by
  have fits := room.fits
  have pointer : (aligned x.top).toNat = x.next := toNat_aligned (by rw [← next]; omega)
  have last : (aligned x.top + size).toNat = x.next + size.toNat := by
    unfold limit at fits
    rw [UInt32.toNat_add, pointer, Nat.mod_eq_of_lt (by omega)]
  have start : UInt32.ofNat x.next = aligned x.top := by rw [← pointer, UInt32.ofNat_toNat]
  have stop : UInt32.ofNat (x.next + size.toNat) = aligned x.top + size := by
    rw [← last, UInt32.ofNat_toNat]
  rw [alloc, bind_eq (show Work.top x = (.ok x.top, x) from rfl),
    bind_eq (reach_eq room.growable (by rw [last]; exact fits)), start, laid, stop, last]
  rfl

/-- Bytes are written after those that the latest block already has. -/
theorem write_laid {size a : Nat} {bs cs : List UInt8} (here : a = x.next + bs.length)
    (inside : bs.length + cs.length ≤ size) :
    write a cs (x.laid size bs) = (.ok (), x.laid size (bs ++ cs)) := by
  have reached := le_size_reaching x.memory (x.next + size)
  rw [write, Memory.write?, if_pos (by rw [laid, Memory.size_put]; omega), laid, laid,
    Memory.put_append, here]

theorem toNat_next {size : Nat} (room : x.Room size) : (UInt32.ofNat x.next).toNat = x.next :=
  toNat_ofNat_of_le (Nat.le_trans (Nat.le_add_right _ _) room.fits)

/-- Nothing is handed out where nil would refer to. -/
theorem start_ne_zero {size : Nat} (room : x.Room size) (base : 16 ≤ x.top.toNat) :
    UInt32.ofNat x.next ≠ 0 := by
  intro zero
  have start := toNat_next room
  have none : (0 : UInt32).toNat = 0 := rfl
  have above : x.top.toNat ≤ x.next := le_roundUp _
  rw [zero] at start
  omega

/-- What every box starts with. -/
def header (tag length : UInt32) : List UInt8 :=
  wordBytes 4 tag.toNat ++ wordBytes 4 length.toNat

theorem length_header (tag length : UInt32) : (header tag length).length = 8 := by
  simp [header]

theorem box_eq {tag length : UInt32} (room : x.Room (8 + length.toNat)) :
    box tag length x = (.ok (UInt32.ofNat x.next), x.laid (8 + length.toNat) (header tag length)) := by
  have fits := room.fits
  have size : (length + 8).toNat = 8 + length.toNat := by
    have eight : (8 : UInt32).toNat = 8 := rfl
    unfold limit at fits
    rw [UInt32.toNat_add, eight, Nat.mod_eq_of_lt (by omega), Nat.add_comm]
  rw [box, bind_eq (alloc_eq (by rwa [size])), size,
    bind_eq (write_laid (by simp [toNat_next room]) (by simp; omega)),
    bind_eq (write_laid (by simp [toNat_next room]) (by simp)), List.nil_append, ← header]
  rfl

theorem boxWord_eq {tag : UInt32} {n : UInt64} (room : x.Room 16) :
    boxWord tag n x =
      (.ok (UInt32.ofNat x.next), x.laid 16 (header tag 8 ++ wordBytes 8 n.toNat)) := by
  have size : 8 + (8 : UInt32).toNat = 16 := rfl
  rw [boxWord, bind_eq (box_eq room), size,
    bind_eq (write_laid (by rw [toNat_next room, length_header]) (by simp [length_header]))]
  rfl

theorem arrayCreate_eq {length : UInt32} (room : x.Room (4 + 4 * length.toNat)) :
    arrayCreate length x = (.ok (UInt32.ofNat x.next),
      x.laid (4 + 4 * length.toNat) (wordBytes 4 length.toNat)) := by
  have fits := room.fits
  have size : (4 + length <<< (2 : UInt32)).toNat = 4 + 4 * length.toNat := by
    have four : (4 : UInt32).toNat = 4 := rfl
    have two : (2 : UInt32).toNat % 32 = 2 := rfl
    unfold limit at fits
    rw [UInt32.toNat_add, UInt32.toNat_shiftLeft, four, two, Nat.shiftLeft_eq,
      Nat.mod_eq_of_lt (a := length.toNat * 2 ^ 2) (by omega), Nat.mod_eq_of_lt (by omega)]
    omega
  rw [arrayCreate, bind_eq (alloc_eq (by rwa [size])), size,
    bind_eq (write_laid (by simp [toNat_next room]) (by simp)), List.nil_append]
  rfl

end Work

end GuestHost.Support
