import GuestHost.Proofs.Handles
import GuestHost.Proofs.Support.Blocks
import GuestHost.Text.Utf8
import GuestHost.Value

/-! How values lie in memory: each in a box of its own, and the references to them in an
array. What is handed out later leaves them alone. -/

namespace GuestHost

open Machine
open Support (Block Space Growable limit roundUp le_roundUp)

/-! ## Buffers that come and go -/

/-- The live buffers are the same. -/
def Buffers.Kept (t t' : Buffers) : Prop := t'.live = t.live

/-- A buffer was stored under a fresh handle and taken again. -/
def Buffers.passing (t : Buffers) (bytes : ByteArray) : Buffers :=
  ⟨t.fresh, (t.live.insert t.fresh bytes).erase t.fresh, t.fresh_nonneg⟩

namespace Buffers.Kept

theorem refl (t : Buffers) : t.Kept t := rfl

theorem trans {t₁ t₂ t₃ : Buffers} (h : t₁.Kept t₂) (h' : t₂.Kept t₃) : t₁.Kept t₃ := Eq.trans h' h

theorem full {t t' : Buffers} (h : t.Kept t') (full : t'.Full) : t.Full := by
  rwa [Full, size, h] at full

theorem passing {t : Buffers} (free : t.fresh ∉ t.live) (bytes : ByteArray) : t.Kept (t.passing bytes) := by
  rw [Kept, Buffers.passing]
  refine Std.ExtTreeMap.ext_getElem? fun k => ?_
  rw [Std.ExtTreeMap.getElem?_erase, Std.ExtTreeMap.getElem?_insert]
  by_cases same : compare t.fresh k = .eq
  · obtain rfl := Std.LawfulEqCmp.eq_of_compare same
    rw [if_pos same, Std.ExtTreeMap.getElem?_eq_none free]
  · rw [if_neg same, if_neg same]

end Buffers.Kept

/-! ## Spaces -/

namespace Support.Space

/-- Memory is there for everything that was handed out, and may grow. -/
structure Ready (x : Space) : Prop where
  growable : Growable x.memory
  base : 16 ≤ x.top.toNat
  inside : x.top.toNat ≤ x.memory.size

/-- More may have been handed out, and what was handed out before is as it was. -/
structure Extends (x y : Space) : Prop where
  ready : y.Ready
  top : x.top.toNat ≤ y.top.toNat
  size : x.memory.size ≤ y.memory.size
  bytes : ∀ i, i < x.top.toNat → y.memory.byte i = x.memory.byte i
  kept : x.buffers.Kept y.buffers

theorem Ready.refl {x : Space} (h : x.Ready) : x.Extends x :=
  ⟨h, Nat.le_refl _, Nat.le_refl _, fun _ _ => rfl, .refl _⟩

theorem Extends.withBuffers {x y : Space} (h : x.Extends y) {t : Buffers} (kept : x.buffers.Kept t) :
    x.Extends { y with buffers := t } :=
  ⟨⟨h.ready.growable, h.ready.base, h.ready.inside⟩, h.top, h.size, h.bytes, kept⟩

variable {x : Space} {size : Nat} {bs : List UInt8}

theorem toNat_top_laid (fits : x.next + size ≤ limit) : (x.laid size bs).top.toNat = x.next + size :=
  Support.toNat_ofNat_of_le fits

theorem laid_extends (room : x.Room size) (base : 16 ≤ x.top.toNat) : x.Extends (x.laid size bs) := by
  have top : (x.laid size bs).top.toNat = x.next + size := toNat_top_laid room.fits
  have above : x.top.toNat ≤ x.next := le_roundUp _
  have size_eq : (x.laid size bs).memory.size = (Support.reaching x.memory (x.next + size)).size := by
    rw [laid, Memory.size_put]
  refine ⟨⟨(room.growable.reaching room.fits).put, ?_, ?_⟩, ?_, ?_, fun i below => ?_, .refl _⟩
  · omega
  · rw [top, size_eq]
    exact Support.le_size_reaching _ _
  · omega
  · rw [size_eq]
    exact Support.size_le_reaching _ _
  · rw [laid, Memory.byte_put_of_apart (by omega)]
    rfl

/-- A block that is written as a whole lies where it was handed out. -/
theorem laid_lies {b : Block} (room : x.Room b.size) (base : 16 ≤ x.top.toNat) :
    b.Lies (x.laid b.size b.bytes).memory (UInt32.ofNat x.next) where
  some_r := Work.start_ne_zero room base
  held := by
    rw [Work.toNat_next room]
    exact Memory.holds_put
  inside := by
    rw [Work.toNat_next room, laid, Memory.size_put]
    exact Support.le_size_reaching _ _
  fits := by
    rw [Work.toNat_next room]
    exact room.fits

end Support.Space

/-! ## Values -/

namespace Value

/-- What is in the box of a value. Nil has none. -/
def block? : Value → Option Block
  | .nil => none
  | .integer n => some (.integer n.toUInt64)
  | .number x => some (.number x)
  | .text s => some (.string (Utf8.encode s).toList)

/-- The value is not a text of so many bytes that their number is no positive word. -/
def Short : Value → Prop
  | .text s => (Utf8.encode s).size < 2147483648
  | _ => True

instance : (v : Value) → Decidable v.Short
  | .nil => inferInstanceAs (Decidable True)
  | .integer _ => inferInstanceAs (Decidable True)
  | .number _ => inferInstanceAs (Decidable True)
  | .text s => inferInstanceAs (Decidable ((Utf8.encode s).size < 2147483648))

/-- The end of what is handed out once the value has been boxed. -/
def boxedEnd (top : Nat) (v : Value) : Nat :=
  match v.block? with
  | none => top
  | some b => roundUp top + b.size

/-- The end of what is handed out once values have been packed into an array. -/
def packedEnd (top : Nat) (vs : List Value) : Nat :=
  if vs.isEmpty then top else vs.foldl boxedEnd (roundUp top + (4 + 4 * vs.length))

theorem le_boxedEnd (top : Nat) (v : Value) : top ≤ v.boxedEnd top := by
  unfold boxedEnd
  split
  · exact Nat.le_refl _
  · exact Nat.le_trans (le_roundUp top) (Nat.le_add_right _ _)

theorem le_foldl_boxedEnd (top : Nat) (vs : List Value) : top ≤ vs.foldl boxedEnd top := by
  induction vs generalizing top with
  | nil => exact Nat.le_refl _
  | cons v vs ih => exact Nat.le_trans (le_boxedEnd top v) (ih _)

/-- A reference stands for a value that lies between two addresses. -/
inductive Stored (m : Memory) (lo hi : Nat) : Value → UInt32 → Prop
  | nil : Stored m lo hi .nil 0
  | boxed {v : Value} {b : Block} {r : UInt32} (kind : v.block? = some b) (short : v.Short)
      (lies : b.Lies m r) (low : lo ≤ r.toNat) (high : r.toNat + b.size ≤ hi) : Stored m lo hi v r

/-- Memory may change elsewhere, and grow. -/
theorem Stored.congr {m m' : Memory} {lo hi lo' hi' : Nat} {v : Value} {r : UInt32}
    (h : Stored m lo hi v r) (grown : m.size ≤ m'.size)
    (same : ∀ i, lo ≤ i → i < hi → m'.byte i = m.byte i) (lower : lo' ≤ lo) (higher : hi ≤ hi') :
    Stored m' lo' hi' v r := by
  cases h with
  | nil => exact .nil
  | boxed kind short lies low high =>
      refine .boxed kind short (lies.congr grown fun i first last => ?_) (Nat.le_trans lower low)
        (Nat.le_trans high higher)
      exact same i (Nat.le_trans low first) (Nat.lt_of_lt_of_le last high)

end Value

/-! ## Arrays of values -/

/-- The first elements of an array stand for values, whose boxes lie behind the array. -/
structure Packed (m : Memory) (hi : Nat) (a : UInt32) (elems : List UInt32) (vs : List Value) : Prop where
  array : (Block.array elems).Lies m a
  stop : a.toNat + (Block.array elems).size ≤ hi
  stored : ∀ (i : Nat) (v : Value), vs[i]? = some v → ∃ r, elems[i]? = some r ∧
    Value.Stored m (a.toNat + (Block.array elems).size) hi v r

namespace Packed

variable {m m' : Memory} {hi hi' : Nat} {a : UInt32} {elems : List UInt32} {vs : List Value}

theorem congr (h : Packed m hi a elems vs) (grown : m.size ≤ m'.size)
    (same : ∀ i, i < hi → m'.byte i = m.byte i) (higher : hi ≤ hi') : Packed m' hi' a elems vs where
  array := h.array.congr grown fun i _ last => same i (Nat.lt_of_lt_of_le last h.stop)
  stop := Nat.le_trans h.stop higher
  stored := by
    intro i v hv
    obtain ⟨r, elem, stored⟩ := h.stored i v hv
    exact ⟨r, elem, stored.congr grown (fun i _ last => same i last) (Nat.le_refl _) higher⟩

/-- The next element is set to a reference. -/
theorem set (h : Packed m hi a elems vs) {v : Value} {r : UInt32} (next : vs.length < elems.length)
    (stored : Value.Stored m (a.toNat + (Block.array elems).size) hi v r) :
    Packed (m.put (a.toNat + 4 + 4 * vs.length) (wordBytes 4 r.toNat)) hi a
      (elems.set vs.length r) (vs ++ [v]) := by
  have same_size : (Block.array (elems.set vs.length r)).size = (Block.array elems).size := by
    rw [Block.size, Block.size, List.length_set]
  have size : (Block.array elems).size = 4 + 4 * elems.length := rfl
  have behind : ∀ i, a.toNat + (Block.array elems).size ≤ i → i < hi →
      (m.put (a.toNat + 4 + 4 * vs.length) (wordBytes 4 r.toNat)).byte i = m.byte i := by
    intro i first _
    refine Memory.byte_put_of_apart ?_
    rw [length_wordBytes]
    omega
  have grown : m.size ≤ (m.put (a.toNat + 4 + 4 * vs.length) (wordBytes 4 r.toNat)).size :=
    Nat.le_of_eq (Memory.size_put _ _ _).symm
  refine ⟨⟨h.array.some_r, Support.Work.holds_set h.array.held next, ?_, ?_⟩, ?_, fun i w hw => ?_⟩
  · rw [same_size, Memory.size_put]
    exact h.array.inside
  · rw [same_size]
    exact h.array.fits
  · rw [same_size]
    exact h.stop
  · rw [same_size]
    by_cases last : i = vs.length
    · subst last
      rw [List.getElem?_concat_length] at hw
      cases hw
      exact ⟨r, by rw [List.getElem?_set_self next], stored.congr grown behind (Nat.le_refl _) (Nat.le_refl _)⟩
    · have before : i < vs.length := by
        have below := (List.getElem?_eq_some_iff.mp hw).1
        rw [List.length_append, List.length_singleton] at below
        omega
      rw [List.getElem?_append_left before] at hw
      obtain ⟨r', elem, stored'⟩ := h.stored i w hw
      exact ⟨r', by rw [List.getElem?_set_ne (Ne.symm last), elem],
        stored'.congr grown behind (Nat.le_refl _) (Nat.le_refl _)⟩

end Packed

/-- A reference is that of the array of values. Without any it is nil. -/
inductive Passed (m : Memory) (hi : Nat) : List Value → UInt32 → Prop
  | nothing : Passed m hi [] 0
  | array {a : UInt32} {elems : List UInt32} {vs : List Value} (packed : Packed m hi a elems vs)
      (length : elems.length = vs.length) : Passed m hi vs a

theorem Passed.congr {m m' : Memory} {hi : Nat} {vs : List Value} {r : UInt32} (h : Passed m hi vs r)
    (grown : m.size ≤ m'.size) (same : ∀ i, i < hi → m'.byte i = m.byte i) : Passed m' hi vs r := by
  cases h with
  | nothing => exact .nothing
  | array packed length => exact .array (packed.congr grown same (Nat.le_refl _)) length

end GuestHost
