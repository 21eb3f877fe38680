import GuestHost.Proofs.Support.Blocks

/-! What it means that a space holds the blocks that were handed out: each lies aligned
in memory with exactly its bytes, no two share an address, and every byte outside of them
is zero. -/

namespace GuestHost.Support

open Machine

/-- A block and the reference to it. -/
structure Piece where
  address : UInt32
  block : Block

namespace Piece

def start (p : Piece) : Nat := p.address.toNat

def stop (p : Piece) : Nat := p.start + p.block.size

/-- The piece after an element was set in the array at an address. -/
def set (a i v : UInt32) (p : Piece) : Piece :=
  match p.block with
  | .array elems => if p.address = a then ⟨a, .array (elems.set i.toNat v)⟩ else p
  | _ => p

@[simp] theorem set_start (a i v : UInt32) (p : Piece) : (p.set a i v).start = p.start := by
  obtain ⟨address, block⟩ := p
  cases block <;> simp only [set]
  split
  · next same => rw [start, start, same]
  · rfl

@[simp] theorem set_stop (a i v : UInt32) (p : Piece) : (p.set a i v).stop = p.stop := by
  have same := set_start a i v p
  obtain ⟨address, block⟩ := p
  rw [stop, stop, same]
  cases block <;> simp only [set]
  split
  · simp [Block.size]
  · rfl

end Piece

/-- All blocks that were ever handed out, the latest first. -/
abbrev Heap := List Piece

namespace Heap

/-- The end of what was handed out. -/
def top : Heap → Nat
  | [] => 16
  | p :: _ => p.stop

def set (a i v : UInt32) (h : Heap) : Heap := h.map (Piece.set a i v)

theorem top_set (a i v : UInt32) (h : Heap) : (h.set a i v).top = h.top := by
  cases h with
  | nil => rfl
  | cons p h => exact Piece.set_stop a i v p

end Heap

/-- The space holds the blocks of a heap. -/
structure Sound (x : Space) (h : Heap) : Prop where
  growable : Growable x.memory
  top : x.top.toNat = h.top
  inside : h.top ≤ x.memory.size
  low : ∀ p ∈ h, 16 ≤ p.start
  aligned : ∀ p ∈ h, p.start % 8 = 0
  high : ∀ p ∈ h, p.stop ≤ h.top
  held : ∀ p ∈ h, x.memory.Holds p.start p.block.bytes
  apart : h.Pairwise fun p q => q.stop ≤ p.start
  clear : ∀ i, (∀ p ∈ h, i < p.start ∨ p.stop ≤ i) → x.memory.byte i = 0

namespace Sound

variable {x : Space} {h : Heap}

theorem fresh (buffers : Buffers) : Sound (Space.fresh buffers) [] where
  growable := ⟨rfl, by change 1 ≤ 65535; omega⟩
  top := rfl
  inside := by
    change 16 ≤ 1 * Wasm.pageSize
    rw [Wasm.pageSize]
    omega
  low := by simp
  aligned := by simp
  high := by simp
  held := by simp
  apart := List.Pairwise.nil
  clear := fun i _ => by simp [Space.fresh, Memory.byte]

/-- The buffers do not matter. -/
theorem withBuffers (s : Sound x h) (buffers : Buffers) : Sound { x with buffers } h :=
  ⟨s.growable, s.top, s.inside, s.low, s.aligned, s.high, s.held, s.apart, s.clear⟩

theorem base (s : Sound x h) : 16 ≤ h.top := by
  cases h with
  | nil => exact Nat.le_refl _
  | cons p h => exact Nat.le_trans (s.low p (List.mem_cons_self ..)) (Nat.le_add_right _ _)

theorem next (s : Sound x h) : x.next = roundUp h.top := by
  rw [Space.next, s.top]

/-- Two pieces are one, or they do not share an address. -/
theorem disjoint (s : Sound x h) {p q : Piece} (hp : p ∈ h) (hq : q ∈ h) :
    p = q ∨ p.stop ≤ q.start ∨ q.stop ≤ p.start := by
  refine List.Pairwise.forall_of_forall_of_flip
    (R := fun p q : Piece => p = q ∨ p.stop ≤ q.start ∨ q.stop ≤ p.start) ?_ ?_ ?_ hp hq
  · exact fun p _ => .inl rfl
  · exact s.apart.imp fun below => .inr (.inr below)
  · exact s.apart.imp fun below => .inr (.inl below)

theorem piece_inside (s : Sound x h) {p : Piece} (hp : p ∈ h) : p.stop ≤ x.memory.size :=
  Nat.le_trans (s.high p hp) s.inside

/-- A block can be read as a whole. -/
theorem read? (s : Sound x h) {p : Piece} (hp : p ∈ h) :
    x.memory.read? p.start p.block.size = some p.block.bytes := by
  rw [← p.block.length_bytes]
  refine (s.held p hp).read? ?_
  rw [p.block.length_bytes]
  exact s.piece_inside hp

theorem size_le (s : Sound x h) : x.memory.size ≤ limit := s.growable.size_le

/-- What can be learnt of a block depends on nothing but that it lies there. -/
theorem lies (s : Sound x h) {p : Piece} (hp : p ∈ h) : p.block.Lies x.memory p.address where
  some_r := by
    intro zero
    have low := s.low p hp
    rw [Piece.start, zero] at low
    exact absurd low (by decide)
  held := s.held p hp
  inside := s.piece_inside hp
  fits := Nat.le_trans (s.piece_inside hp) s.size_le

/-! ## A new block -/

/-- A block is laid behind the others. Its bytes are those that are written, and zeros. -/
theorem lay (s : Sound x h) {b : Block} {bs : List UInt8} {k : Nat}
    (fits : x.next + b.size ≤ limit) (bytes : b.bytes = bs ++ List.replicate k 0) :
    Sound (x.laid b.size bs) (⟨UInt32.ofNat x.next, b⟩ :: h) := by
  have start : (UInt32.ofNat x.next).toNat = x.next := Work.toNat_next ⟨s.growable, fits⟩
  have above : h.top ≤ x.next := by
    rw [s.next]
    exact le_roundUp _
  have size : b.size = bs.length + k := by
    rw [← b.length_bytes, bytes, List.length_append, List.length_replicate]
  have base := s.base
  have kept : ∀ i, i < x.next ∨ x.next + bs.length ≤ i →
      (x.laid b.size bs).memory.byte i = x.memory.byte i :=
    fun i beside => Memory.byte_put_of_apart beside
  exact {
    growable := (s.growable.reaching fits).put
    top := by
      change (UInt32.ofNat (x.next + b.size)).toNat = (UInt32.ofNat x.next).toNat + b.size
      rw [start, toNat_ofNat_of_le fits]
    inside := by
      change (UInt32.ofNat x.next).toNat + b.size ≤ (x.laid b.size bs).memory.size
      rw [start, Space.laid, Memory.size_put]
      exact le_size_reaching _ _
    low := by
      refine List.forall_mem_cons.mpr ⟨?_, s.low⟩
      change 16 ≤ (UInt32.ofNat x.next).toNat
      omega
    aligned := by
      refine List.forall_mem_cons.mpr ⟨?_, s.aligned⟩
      change (UInt32.ofNat x.next).toNat % 8 = 0
      rw [start, s.next, roundUp_mod]
    high := by
      refine List.forall_mem_cons.mpr ⟨Nat.le_refl _, fun p hp => ?_⟩
      change p.stop ≤ (UInt32.ofNat x.next).toNat + b.size
      have high := s.high p hp
      omega
    held := by
      refine List.forall_mem_cons.mpr ⟨?_, fun p hp => ?_⟩
      · change (x.laid b.size bs).memory.Holds (UInt32.ofNat x.next).toNat b.bytes
        rw [start, bytes]
        -- What was not written is as it was, and there was no block before.
        refine Memory.holds_append.mpr ⟨Memory.holds_put, fun j c hj => ?_⟩
        obtain ⟨_, rfl⟩ := List.getElem?_eq_some_iff.mp hj
        rw [kept _ (by omega), List.getElem_replicate]
        refine s.clear _ fun p hp => .inr ?_
        have high := s.high p hp
        omega
      · intro j c hj
        have inside := (List.getElem?_eq_some_iff.mp hj).1
        have high := s.high p hp
        rw [p.block.length_bytes] at inside
        unfold Piece.stop at high
        rw [kept _ (by omega)]
        exact s.held p hp j c hj
    apart := by
      refine List.Pairwise.cons (fun p hp => ?_) s.apart
      change p.stop ≤ (UInt32.ofNat x.next).toNat
      have high := s.high p hp
      omega
    clear := by
      intro i outside
      obtain ⟨here, others⟩ := List.forall_mem_cons.mp outside
      change i < (UInt32.ofNat x.next).toNat ∨ (UInt32.ofNat x.next).toNat + b.size ≤ i at here
      rw [kept _ (by omega)]
      exact s.clear i others }

/-! ## A new element -/

theorem set (s : Sound x h) {a i v : UInt32} {elems : List UInt32}
    (found : ⟨a, .array elems⟩ ∈ h) (below : i.toNat < elems.length) :
    Sound (x.withWord (a.toNat + 4 + 4 * i.toNat) v) (h.set a i v) := by
  have stop : (Piece.mk a (.array elems)).stop = a.toNat + (4 + 4 * elems.length) := rfl
  have covered := s.high _ found
  have mapped : ∀ {P : Piece → Prop}, (∀ p ∈ h, P (p.set a i v)) → ∀ p ∈ h.set a i v, P p :=
    fun all => List.forall_mem_map.mpr all
  exact {
    growable := s.growable.put
    top := by
      rw [Heap.top_set]
      exact s.top
    inside := by
      rw [Heap.top_set, Space.withWord, Memory.size_put]
      exact s.inside
    low := mapped (by simpa using s.low)
    aligned := mapped (by simpa using s.aligned)
    high := mapped (by simpa [Heap.top_set] using s.high)
    held := mapped fun p hp => by
      rw [Piece.set_start]
      rcases s.disjoint hp found with rfl | apart
      · simp only [Piece.set, if_pos]
        exact Work.holds_set (s.held _ hp) below
      · have other : p.set a i v = p := by
          obtain ⟨address, block⟩ := p
          cases block <;> simp only [Piece.set]
          rw [if_neg]
          rintro rfl
          simp only [Piece.stop, Piece.start, Block.size] at apart
          omega
        rw [other]
        refine (s.held p hp).put ?_
        rw [p.block.length_bytes, length_wordBytes]
        unfold Piece.stop at apart
        simp only [Piece.start, Block.size] at apart ⊢
        omega
    apart := by
      refine List.pairwise_map.mpr (s.apart.imp fun {p q} below => ?_)
      simpa using below
    clear := by
      intro i' outside
      have outside' : ∀ p ∈ h, i' < p.start ∨ p.stop ≤ i' := by
        intro p hp
        simpa using outside _ (List.mem_map_of_mem hp)
      have here := outside' _ found
      rw [stop, Piece.start] at here
      have kept : (x.memory.put (a.toNat + 4 + 4 * i.toNat) (wordBytes 4 v.toNat)).byte i' =
          x.memory.byte i' := by
        refine Memory.byte_put_of_apart ?_
        rw [length_wordBytes]
        dsimp only at here
        omega
      exact kept.trans (s.clear i' outside') }

/-! ## Blocks that are neither boxes nor arrays -/

/-- The first word of a block that nothing was ever written to is zero, also if the block
is shorter. -/
theorem raw_head (s : Sound x h) {p : Piece} (hp : p ∈ h)
    (only : ∀ q ∈ h, q.address = p.address → ∃ n, q.block = .raw n) :
    x.memory.Holds p.start (wordBytes 4 0) := by
  intro k b hk
  have below : k < 4 := by simpa using (List.getElem?_eq_some_iff.mp hk).1
  have zero : b = 0 := by
    obtain rfl | rfl | rfl | rfl : k = 0 ∨ k = 1 ∨ k = 2 ∨ k = 3 := by omega
    all_goals exact (Option.some.inj hk).symm
  rw [zero]
  by_cases covered : ∃ q ∈ h, q.start ≤ p.start + k ∧ p.start + k < q.stop
  · obtain ⟨q, hq, first, last⟩ := covered
    have raw : ∃ n, q.block = .raw n := by
      rcases s.disjoint hp hq with rfl | before | after
      · exact only _ hp rfl
      · have hp8 := s.aligned p hp
        have hq8 := s.aligned q hq
        unfold Piece.stop at before
        refine only q hq (UInt32.toNat_inj.mp ?_)
        change q.start = p.start
        omega
      · omega
    obtain ⟨n, hn⟩ := raw
    have held := s.held q hq (p.start + k - q.start) 0
    rw [Nat.add_sub_cancel' first] at held
    refine held ?_
    unfold Piece.stop at last
    rw [hn] at last ⊢
    rw [Block.bytes, List.getElem?_replicate, if_pos]
    change p.start + k < q.start + n at last
    omega
  · refine s.clear _ fun q hq => ?_
    have beside := not_and.mp fun both => covered ⟨q, hq, both⟩
    omega

end Sound

end GuestHost.Support
