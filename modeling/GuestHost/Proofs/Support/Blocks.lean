import GuestHost.Proofs.Support.Calls
import GuestHost.Proofs.Support.Strings

/-! The blocks that are handed out, as data, and what calls of the exports answer about
one that lies in memory. Nothing else that memory holds matters to them. -/

namespace GuestHost.Support

open Machine

/-- What a block holds. -/
inductive Block
  | raw (size : Nat)
  | integer (n : UInt64)
  | number (x : Binary64)
  | string (bytes : List UInt8)
  | array (elems : List UInt32)

namespace Block

def bytes : Block → List UInt8
  | .raw n => List.replicate n 0
  | .integer n => Work.wordBox 2 n
  | .number x => Work.wordBox 3 x.bits
  | .string bs => Work.stringBox bs
  | .array elems => Work.arrayBytes elems

def size : Block → Nat
  | .raw n => n
  | .integer _ | .number _ => 16
  | .string bs => 8 + bs.length
  | .array elems => 4 + 4 * elems.length

/-- The tag of a box. Raw blocks and arrays are none. -/
def tag? : Block → Option UInt32
  | .integer _ => some 2
  | .number _ => some 3
  | .string _ => some 4
  | .raw _ | .array _ => none

theorem length_bytes (b : Block) : b.bytes.length = b.size := by
  cases b with
  | raw n => simp [bytes, size]
  | integer n => simp [bytes, size, Work.wordBox, Work.length_header]
  | number x => simp [bytes, size, Work.wordBox, Work.length_header]
  | string bs => simp [bytes, size, Work.stringBox, Work.length_header]
  | array elems => rw [bytes, size, Work.arrayBytes, List.length_append, length_wordBytes, Work.length_words]

end Block

theorem Block.bytes_of_tag {b : Block} {tag : UInt32} (tagged : b.tag? = some tag) :
    ∃ rest, b.bytes = wordBytes 4 tag.toNat ++ rest := by
  cases b with
  | raw n => cases tagged
  | integer n =>
      cases tagged
      exact ⟨_, List.append_assoc _ _ _⟩
  | number y =>
      cases tagged
      exact ⟨_, List.append_assoc _ _ _⟩
  | string bs =>
      cases tagged
      exact ⟨_, List.append_assoc _ _ _⟩
  | array elems => cases tagged

/-- The end of a call at the instruction that always traps. -/
def trapped : Except Failure (List Val) := .error (.trap .unreachable)

namespace Call

/-- The block that a call asks for. There is none for a buffer that is not live, or too
large for its bytes to be counted. -/
def block? (t : Buffers) : Call → Option Block
  | .alloc n => some (.raw n.toNat)
  | .boxInteger n => some (.integer n)
  | .boxNumber x => some (.number x)
  | .boxString b =>
    match t.get b.toInt32 with
    | .ok bytes => if bytes.size < 2147483648 then some (.string bytes.data.toList) else none
    | .error _ => none
  | .stringNew n => some (.string (List.replicate n.toNat 0))
  | .arrayCreate n => some (.array (List.replicate n.toNat 0))
  | _ => none

/-- A call that asks for a block stores no buffer. -/
theorem fed_of_block {c : Call} {t : Buffers} {b : Block} (asked : c.block? t = some b) (x : Space) :
    ¬ c.Starves x := by
  cases c with
  | toHostString v => cases asked
  | _ => exact id

/-- The reference that a call looks at. -/
def subject? : Call → Option UInt32
  | .arraySet a _ _ | .arrayGet a _ | .arraySize a | .getTypeNum a | .stringLen a
  | .stringBytes a | .toHostInteger a | .toHostNumber a | .toHostString a => some a
  | _ => none

/-- The tag that a call expects. -/
def tag? : Call → Option UInt32
  | .toHostInteger _ => some 2
  | .toHostNumber _ => some 3
  | .stringLen _ | .stringBytes _ | .toHostString _ => some 4
  | _ => none

/-- What a call comes to on a block of the kind that it is meant for. -/
def answer? : Call → Block → Option (Except Failure (List Val))
  | .arraySet _ i _, .array elems => some (if i.toNat < elems.length then .ok [] else trapped)
  | .arrayGet _ i, .array elems =>
    some (match elems[i.toNat]? with
      | some w => .ok [.i32 w]
      | none => trapped)
  | .arraySize _, .array elems => some (.ok [.i32 (UInt32.ofNat elems.length)])
  | .getTypeNum _, b => b.tag?.map fun tag => .ok [.i32 tag]
  | .stringLen _, .string bs => some (.ok [.i32 (UInt32.ofNat bs.length)])
  | .stringBytes v, .string _ => some (.ok [.i32 (v + 8)])
  | .toHostInteger _, .integer n => some (.ok [.i64 n])
  | .toHostNumber _, .number x => some (.ok [.f64 x])
  | _, _ => none

/-- What a call comes to on nil. -/
def answerNil : Call → Except Failure (List Val)
  | .getTypeNum _ | .arraySize _ => .ok [.i32 0]
  | _ => trapped

end Call

namespace Call

variable {x : Space}

/-! ## Calls that hand out a block -/

theorem words_replicate (n : Nat) :
    ((List.replicate n (0 : UInt32)).flatMap fun v => wordBytes 4 v.toNat) = List.replicate (4 * n) 0 := by
  induction n with
  | zero => rfl
  | succ n ih =>
      rw [List.replicate_succ, List.flatMap_cons, ih, Nat.mul_add, Nat.add_comm, ← List.replicate_append_replicate]
      rfl

theorem block?_boxString {t : Buffers} {buffer : UInt32} {b : Block}
    (asked : (Call.boxString buffer).block? t = some b) :
    ∃ bytes, t.get buffer.toInt32 = .ok bytes ∧ bytes.size < 2147483648 ∧ b = .string bytes.data.toList := by
  simp only [Call.block?] at asked
  split at asked
  · next bytes live =>
      split at asked
      · next small =>
          cases asked
          exact ⟨bytes, live, small, rfl⟩
      · cases asked
  · cases asked

/-- A call that asks for a block gets one if there is room, with zeros where it writes nothing. -/
theorem hands_out {c : Call} {b : Block} (asked : c.block? x.buffers = some b) (room : x.Room b.size) :
    ∃ bs k, b.bytes = bs ++ List.replicate k 0 ∧
      c.work x = (.ok [.i32 (UInt32.ofNat x.next)], x.laid b.size bs) := by
  cases c with
  | alloc n =>
      cases asked
      refine ⟨[], n.toNat, rfl, ?_⟩
      rw [Call.work, Work.giving, Work.alloc_eq room]
      rfl
  | boxInteger n =>
      cases asked
      refine ⟨Work.wordBox 2 n, 0, (List.append_nil _).symm, ?_⟩
      rw [Call.work, Work.giving, Work.boxWord_eq room]
      rfl
  | boxNumber y =>
      cases asked
      refine ⟨Work.wordBox 3 y.bits, 0, (List.append_nil _).symm, ?_⟩
      rw [Call.work, Work.giving, Work.boxWord_eq room]
      rfl
  | boxString buffer =>
      obtain ⟨bytes, live, small, rfl⟩ := block?_boxString asked
      refine ⟨Work.stringBox bytes.data.toList, 0, (List.append_nil _).symm, ?_⟩
      have size : (Block.string bytes.data.toList).size = 8 + bytes.size := by
        rw [Block.size, Array.length_toList, ByteArray.size_data]
      rw [size] at room ⊢
      rw [Call.work, Work.giving, Work.boxString_eq live small room]
      rfl
  | stringNew n =>
      cases asked
      have size : (Block.string (List.replicate n.toNat 0)).size = 8 + n.toNat := by
        rw [Block.size, List.length_replicate]
      rw [size] at room ⊢
      refine ⟨Work.header 4 n, n.toNat, ?_, ?_⟩
      · rw [Block.bytes, Work.stringBox, List.length_replicate, UInt32.ofNat_toNat]
      · rw [Call.work, Work.giving, Work.stringNew, Work.box_eq room]
        rfl
  | arrayCreate n =>
      cases asked
      have size : (Block.array (List.replicate n.toNat 0)).size = 4 + 4 * n.toNat := by
        rw [Block.size, List.length_replicate]
      rw [size] at room ⊢
      refine ⟨wordBytes 4 n.toNat, 4 * n.toNat, ?_, ?_⟩
      · rw [Block.bytes, Work.arrayBytes, List.length_replicate, words_replicate]
      · rw [Call.work, Work.giving, Work.arrayCreate_eq room]
        rfl
  | arraySet a i v => cases asked
  | arrayGet a i => cases asked
  | arraySize v => cases asked
  | getTypeNum v => cases asked
  | stringLen v => cases asked
  | stringBytes v => cases asked
  | toHostInteger v => cases asked
  | toHostNumber v => cases asked
  | toHostString v => cases asked

/-- A buffer that cannot be boxed leaves everything as it was. -/
theorem refused {buffer : UInt32} (none_asked : (Call.boxString buffer).block? x.buffers = none) :
    ∃ e, (Call.boxString buffer).work x = (.error (.host e), x) := by
  have failed : ∃ e, Work.bufferSize buffer x = (.error (.host e), x) := by
    simp only [Call.block?] at none_asked
    rw [Work.bufferSize]
    split at none_asked
    · next bytes live =>
        split at none_asked
        · cases none_asked
        · next large =>
            have most : Int32.maxValue.toInt = 2147483647 := rfl
            rw [live]
            exact ⟨_, if_neg (by omega)⟩
    · next e missing =>
        rw [missing]
        exact ⟨e, rfl⟩
  obtain ⟨e, failed⟩ := failed
  refine ⟨e, ?_⟩
  rw [Call.work, Work.giving, Work.boxString, Work.bind_error failed]
  rfl

/-! ## Calls that only look -/

section

variable {c : Call} {v tag : UInt32} {e : Failure} {y : Space}

/-- A call that expects a tag goes no further than the check of the tag if that fails. -/
theorem of_expect (subject : c.subject? = some v) (expected : c.tag? = some tag)
    (failed : Work.expect v tag x = (.error e, y)) : c.work x = (.error e, y) := by
  cases c with
  | stringLen v =>
      cases subject
      cases expected
      rw [Call.work, Work.giving, Work.stringLen, Work.bind_error failed]
      rfl
  | stringBytes v =>
      cases subject
      cases expected
      rw [Call.work, Work.giving, Work.stringBytes, Work.bind_error failed]
      rfl
  | toHostInteger v =>
      cases subject
      cases expected
      rw [Call.work, Work.giving, Work.unboxWord, Work.bind_error failed]
      rfl
  | toHostNumber v =>
      cases subject
      cases expected
      rw [Call.work, Work.giving, Work.unboxWord, Work.bind_error failed]
      rfl
  | toHostString v =>
      cases subject
      cases expected
      rw [Call.work, Work.giving, Work.toHostString, Work.bind_error failed]
      rfl
  | _ => cases expected

end

/-- Without the place of an element nothing is written. -/
theorem arraySet_of_slot {array i v : UInt32} {e : Failure} {y : Space}
    (failed : Work.slot array i x = (.error e, y)) : (Call.arraySet array i v).work x = (.error e, y) := by
  rw [Call.work, Work.giving, Work.arraySet, Work.bind_error failed]
  rfl

/-- Without the place of an element nothing is read. -/
theorem arrayGet_of_slot {array i : UInt32} {e : Failure} {y : Space}
    (failed : Work.slot array i x = (.error e, y)) : (Call.arrayGet array i).work x = (.error e, y) := by
  rw [Call.work, Work.giving, Work.arrayGet, Work.bind_error failed]
  rfl

/-- There is little to be had from nil. -/
theorem answers_nil {c : Call} (subject : c.subject? = some 0) : (c.work x).1 = c.answerNil := by
  -- What expects a tag fails at its check, what has elements at their place.
  have failed {tag : UInt32} (expected : c.tag? = some tag) : (c.work x).1 = trapped := by
    rw [of_expect subject expected (Work.expect_nil tag)]
    rfl
  cases c with
  | arraySet array i v =>
      cases subject
      rw [arraySet_of_slot Work.slot_nil]
      rfl
  | arrayGet array i =>
      cases subject
      rw [arrayGet_of_slot Work.slot_nil]
      rfl
  | arraySize v | getTypeNum v =>
      cases subject
      rfl
  | stringLen v | stringBytes v | toHostInteger v | toHostNumber v | toHostString v => exact failed rfl
  | _ => cases subject

/-- Calls that neither ask for a block nor write nor copy leave everything as it was. -/
theorem looks {c : Call} {v : UInt32} (subject : c.subject? = some v)
    (reads : ∀ a i w, c ≠ .arraySet a i w) (stays : ∀ w, c ≠ .toHostString w) : (c.work x).2 = x := by
  cases c with
  | arraySet a i v => exact absurd rfl (reads a i v)
  | toHostString v => exact absurd rfl (stays v)
  | arrayGet a i =>
      rw [Call.work, Work.giving]
      exact (Work.arrayGet_looks a i x).symm
  | arraySize v =>
      rw [Call.work, Work.giving]
      exact (Work.head_looks v x).symm
  | getTypeNum v =>
      rw [Call.work, Work.giving]
      exact (Work.head_looks v x).symm
  | stringLen v =>
      rw [Call.work, Work.giving]
      exact (Work.stringLen_looks v x).symm
  | stringBytes v =>
      rw [Call.work, Work.giving]
      exact (Work.stringBytes_looks v x).symm
  | toHostInteger v =>
      rw [Call.work, Work.giving]
      exact (Work.unboxWord_looks 2 v x).symm
  | toHostNumber v =>
      rw [Call.work, Work.giving]
      exact (Work.unboxWord_looks 3 v x).symm
  | _ => cases subject

end Call

/-! ## Blocks in memory -/

/-- Whatever lies in memory can be taken for words. -/
theorem Work.exists_words (m : Memory) (a n : Nat) :
    ∃ elems : List UInt32, elems.length = n ∧ m.Holds a (elems.flatMap fun v => wordBytes 4 v.toNat) := by
  induction n generalizing a with
  | zero => exact ⟨[], rfl, Memory.holds_nil⟩
  | succ n ih =>
      obtain ⟨elems, length, held⟩ := ih (a + 4)
      let bs := (List.range' a 4).map m.byte
      have four : bs.length = 4 := by simp [bs]
      have word : wordBytes 4 (UInt32.ofNat (bytesWord bs)).toNat = bs := by
        have below : bytesWord bs < Nat.pow 256 4 := four ▸ bytesWord_lt bs
        rw [UInt32.toNat_ofNat', Nat.mod_eq_of_lt below, ← four, wordBytes_bytesWord]
      refine ⟨UInt32.ofNat (bytesWord bs) :: elems, by rw [List.length_cons, length], ?_⟩
      rw [List.flatMap_cons, word]
      refine Memory.holds_append.mpr ⟨Memory.holds_range m a 4, ?_⟩
      rwa [four]

/-- An array keeps its other elements when one is set. -/
theorem Work.holds_set {m : Memory} {a i : Nat} {v : UInt32} {elems : List UInt32}
    (held : m.Holds a (arrayBytes elems)) (below : i < elems.length) :
    (m.put (a + 4 + 4 * i) (wordBytes 4 v.toNat)).Holds a (arrayBytes (elems.set i v)) := by
  have before : (elems.take i).length = i := List.length_take_of_le (Nat.le_of_lt below)
  have split : elems = elems.take i ++ elems[i] :: elems.drop (i + 1) := by simp
  have split' : elems.set i v = elems.take i ++ v :: elems.drop (i + 1) := by
    rw [List.set_eq_take_append_cons_drop, if_pos below]
  obtain ⟨length, words⟩ := Memory.holds_append.mp held
  rw [split, List.flatMap_append, List.flatMap_cons] at words
  obtain ⟨first, words⟩ := Memory.holds_append.mp words
  have last := (Memory.holds_append.mp words).2
  rw [length_words, before, length_wordBytes] at last
  rw [length_wordBytes] at first last
  rw [arrayBytes, List.length_set, split', List.flatMap_append, List.flatMap_cons]
  refine Memory.holds_append.mpr ⟨length.put (by simp), ?_⟩
  refine Memory.holds_append.mpr ⟨?_, Memory.holds_append.mpr ⟨?_, ?_⟩⟩
  · rw [length_wordBytes]
    refine first.put ?_
    rw [length_words, before]
    omega
  · rw [length_wordBytes, length_words, before]
    exact Memory.holds_put
  · rw [length_wordBytes, length_words, before, length_wordBytes]
    exact last.put (by simp)

/-- A block lies in memory, where a reference refers to it. -/
structure Block.Lies (b : Block) (m : Memory) (r : UInt32) : Prop where
  some_r : r ≠ 0
  held : m.Holds r.toNat b.bytes
  inside : r.toNat + b.size ≤ m.size
  fits : r.toNat + b.size ≤ limit

namespace Block.Lies

variable {b : Block} {r : UInt32} {c : Call}

/-- Memory may change where the block is not, and grow. -/
theorem congr {m m' : Memory} (h : b.Lies m r) (grown : m.size ≤ m'.size)
    (same : ∀ i, r.toNat ≤ i → i < r.toNat + b.size → m'.byte i = m.byte i) : b.Lies m' r where
  some_r := h.some_r
  held := by
    intro k byte hk
    have below := (List.getElem?_eq_some_iff.mp hk).1
    rw [b.length_bytes] at below
    rw [same _ (Nat.le_add_right _ _) (by omega)]
    exact h.held k byte hk
  inside := Nat.le_trans h.inside grown
  fits := h.fits

variable {x : Space}

/-! ## Arrays -/

/-- Where a length was written there is an array, whatever its elements may be. -/
theorem exists_array {m : Memory} {a : UInt32} {n : Nat} (some_a : a ≠ 0)
    (head : m.Holds a.toNat (wordBytes 4 n)) (inside : a.toNat + (4 + 4 * n) ≤ m.size)
    (fits : a.toNat + (4 + 4 * n) ≤ limit) :
    ∃ elems, elems.length = n ∧ (Block.array elems).Lies m a := by
  obtain ⟨elems, rfl, held⟩ := Work.exists_words m (a.toNat + 4) n
  refine ⟨elems, rfl, some_a, Memory.holds_append.mpr ⟨head, ?_⟩, inside, fits⟩
  rwa [length_wordBytes]

section

variable {a : UInt32} {elems : List UInt32} (h : (Block.array elems).Lies x.memory a)

include h

theorem array_inside : a.toNat + 4 + 4 * elems.length ≤ x.memory.size := by
  have inside := h.inside
  change a.toNat + (4 + 4 * elems.length) ≤ x.memory.size at inside
  omega

theorem array_fits : a.toNat + 4 + 4 * elems.length ≤ limit := by
  have fits := h.fits
  change a.toNat + (4 + 4 * elems.length) ≤ limit at fits
  omega

theorem toNat_length : (UInt32.ofNat elems.length).toNat = elems.length := by
  have fits := h.array_fits
  exact toNat_ofNat_of_le (by omega)

theorem array_head :
    x.memory.Holds a.toNat (wordBytes 4 (UInt32.ofNat elems.length).toNat) := by
  rw [h.toNat_length]
  exact (Memory.holds_append.mp h.held).1

/-- The address of an element below the length. -/
theorem slot_below {i : UInt32} (below : i.toNat < elems.length) :
    ∃ w : UInt32, w.toNat = a.toNat + 4 + 4 * i.toNat ∧ Work.slot a i x = (.ok w, x) := by
  have length := h.toNat_length
  have inside := h.array_inside
  have fits := h.array_fits
  have less : i < UInt32.ofNat elems.length := by rwa [UInt32.lt_iff_toNat_lt, length]
  exact ⟨_, Work.toNat_slot less (by rw [length]; omega),
    Work.slot_eq h.some_r h.array_head (by omega) less⟩

/-- There is no element from the length on. -/
theorem slot_beyond {i : UInt32} (beyond : ¬ i.toNat < elems.length) :
    Work.slot a i x = (.error (.trap .unreachable), x) := by
  have inside := h.array_inside
  refine Work.slot_error h.array_head (by omega) ?_
  rwa [UInt32.lt_iff_toNat_lt, h.toNat_length]

theorem arraySet_below {i v : UInt32} (below : i.toNat < elems.length) :
    (Call.arraySet a i v).work x =
      (.ok [], x.withWord (a.toNat + 4 + 4 * i.toNat) v) := by
  obtain ⟨w, place, slot⟩ := h.slot_below below
  have inside := h.array_inside
  have written : Work.write w.toNat (wordBytes 4 v.toNat) x =
      (.ok (), x.withWord (a.toNat + 4 + 4 * i.toNat) v) := by
    rw [Work.write, place, Memory.write?, length_wordBytes, if_pos (by omega), Space.withWord]
  rw [Call.work, Work.giving, Work.arraySet, Work.bind_eq slot, written]
  rfl

theorem arraySet_beyond {i v : UInt32} (beyond : ¬ i.toNat < elems.length) :
    (Call.arraySet a i v).work x = (trapped, x) := by
  rw [Call.arraySet_of_slot (h.slot_beyond beyond)]
  rfl

theorem arrayGet_below {i w : UInt32} (elem : elems[i.toNat]? = some w) :
    (Call.arrayGet a i).work x = (.ok [.i32 w], x) := by
  have below := (List.getElem?_eq_some_iff.mp elem).1
  obtain ⟨b, place, slot⟩ := h.slot_below below
  have inside := h.array_inside
  have held := Work.holds_elem h.held elem
  rw [← place] at held
  rw [Call.work, Work.giving, Work.arrayGet, Work.bind_eq slot,
    Work.bind_eq (Work.fetch_eq held (length_wordBytes _ _) (by omega)),
    bytesWord_wordBytes_of_lt w.toNat_lt, UInt32.ofNat_toNat]
  rfl

theorem arrayGet_beyond {i : UInt32} (beyond : elems[i.toNat]? = none) :
    (Call.arrayGet a i).work x = (trapped, x) := by
  have beyond' := Nat.not_lt.mpr (List.getElem?_eq_none_iff.mp beyond)
  rw [Call.arrayGet_of_slot (h.slot_beyond beyond')]
  rfl

end

/-! ## Boxes -/

/-- A box starts with its tag. -/
theorem tagged (h : b.Lies x.memory r) {tag : UInt32} (tagged : b.tag? = some tag) :
    x.memory.Holds r.toNat (wordBytes 4 tag.toNat) ∧ r.toNat + 4 ≤ x.memory.size := by
  obtain ⟨rest, bytes⟩ := bytes_of_tag tagged
  have held := h.held
  have inside := h.inside
  rw [← b.length_bytes, bytes, List.length_append, length_wordBytes] at inside
  rw [bytes] at held
  exact ⟨(Memory.holds_append.mp held).1, by omega⟩

theorem word_held (h : b.Lies x.memory r) {tag : UInt32} {n : UInt64}
    (bytes : b.bytes = Work.wordBox tag n) : Work.unboxWord tag r x = (.ok n, x) := by
  have held := h.held
  have inside := h.inside
  have size : b.size = 16 := by
    rw [← b.length_bytes, bytes]
    simp [Work.wordBox, Work.length_header]
  rw [bytes] at held
  exact Work.unboxWord_eq h.some_r held (by omega)

section

variable {bs : List UInt8} (h : (Block.string bs).Lies x.memory r)

include h

theorem string_inside : r.toNat + 8 + bs.length ≤ x.memory.size := by
  have inside := h.inside
  change r.toNat + (8 + bs.length) ≤ x.memory.size at inside
  omega

theorem string_fits : r.toNat + 8 + bs.length ≤ limit := by
  have fits := h.fits
  change r.toNat + (8 + bs.length) ≤ limit at fits
  omega

theorem string_head : x.memory.Holds r.toNat (Work.header 4 (UInt32.ofNat bs.length)) :=
  (Memory.holds_append.mp h.held).1

/-- A string is copied into a fresh buffer. -/
theorem copies (small : bs.length < 2147483648) (free : x.buffers.fresh ∉ x.buffers.live) :
    (Call.toHostString r).work x =
      (.ok [.i32 x.buffers.fresh.toUInt32], x.withBuffer bs) := by
  rw [Call.work, Work.giving, Work.toHostString_eq free h.some_r h.held small
    h.string_inside (Nat.le_trans h.string_fits (by decide))]
  rfl

/-- Where there is no handle for it, a string is never copied. -/
theorem starves (small : bs.length < 2147483648) (full : x.buffers.fresh ∈ x.buffers.live) :
    (Call.toHostString r).Starves x := by
  have inside := h.string_inside
  have fits := h.string_fits
  obtain ⟨tag, word⟩ := Memory.holds_append.mp h.string_head
  rw [length_wordBytes] at word
  have length : (UInt32.ofNat bs.length).toNat = bs.length := toNat_ofNat_of_le (by omega)
  refine ⟨_, _, Work.expect_eq h.some_r tag (by omega), _, _,
    Work.fetch_eq word (length_wordBytes _ _) (by omega), ?_, full⟩
  rw [bytesWord_wordBytes_of_lt (UInt32.toNat_lt _), UInt32.ofNat_toNat, Work.toInt32_neg_iff]
  omega

/-- A string is refused if its length does not count as a positive word. -/
theorem too_long (large : 2147483648 ≤ bs.length) :
    (Call.toHostString r).work x =
      (.error (.host (.invalidLength (UInt32.ofNat bs.length).toInt32)), x) := by
  have inside := h.string_inside
  have fits := h.string_fits
  obtain ⟨tag, word⟩ := Memory.holds_append.mp h.string_head
  rw [length_wordBytes] at word
  have length : (UInt32.ofNat bs.length).toNat = bs.length := toNat_ofNat_of_le (by omega)
  have inside' : r.toNat + 4 ≤ x.memory.size := by omega
  rw [Call.work, Work.giving, Work.toHostString,
    Work.bind_eq (Work.expect_eq h.some_r tag inside'),
    Work.bind_eq (Work.fetch_eq word (length_wordBytes _ _) (by omega)),
    bytesWord_wordBytes_of_lt (UInt32.toNat_lt _), UInt32.ofNat_toNat,
    Work.bind_error (Work.bufferNew_large (by omega))]
  rfl

end

/-! ## Every answer -/

section

variable (h : b.Lies x.memory r)

include h

theorem answers {a : Except Failure (List Val)} (subject : c.subject? = some r)
    (answer : c.answer? b = some a) : (c.work x).1 = a := by
  cases c with
  | arraySet array i v =>
      cases subject
      cases b <;> cases answer
      split
      · next below => rw [h.arraySet_below below]
      · next beyond => rw [h.arraySet_beyond beyond]
  | arrayGet array i =>
      cases subject
      cases b <;> cases answer
      split
      · next elem => rw [h.arrayGet_below elem]
      · next beyond => rw [h.arrayGet_beyond beyond]
  | arraySize v =>
      cases subject
      cases b <;> cases answer
      have inside : r.toNat + 4 ≤ x.memory.size := Nat.le_trans (Nat.le_add_right _ _) h.array_inside
      rw [Call.work, Work.giving, Work.head_eq h.some_r h.array_head inside]
      rfl
  | getTypeNum v =>
      cases subject
      obtain ⟨tag, tagged, rfl⟩ := Option.map_eq_some_iff.mp answer
      obtain ⟨held, inside⟩ := h.tagged tagged
      rw [Call.work, Work.giving, Work.head_eq h.some_r held inside]
      rfl
  | stringLen v =>
      cases subject
      cases b <;> cases answer
      have inside : r.toNat + 8 ≤ x.memory.size := Nat.le_trans (Nat.le_add_right _ _) h.string_inside
      rw [Call.work, Work.giving, Work.stringLen_eq h.some_r h.string_head inside]
      rfl
  | stringBytes v =>
      cases subject
      cases b <;> cases answer
      have inside : r.toNat + 8 ≤ x.memory.size := Nat.le_trans (Nat.le_add_right _ _) h.string_inside
      rw [Call.work, Work.giving, Work.stringBytes_eq h.some_r h.string_head inside]
      rfl
  | toHostInteger v =>
      cases subject
      cases b <;> cases answer
      rw [Call.work, Work.giving, h.word_held rfl]
      rfl
  | toHostNumber v =>
      cases subject
      cases b <;> cases answer
      rw [Call.work, Work.giving, h.word_held rfl]
      rfl
  | toHostString v => cases b <;> cases answer
  | alloc n => cases subject
  | boxInteger n => cases subject
  | boxNumber y => cases subject
  | boxString b => cases subject
  | stringNew n => cases subject
  | arrayCreate n => cases subject

/-- A box of another kind than expected is no better than nil. -/
theorem mistaken {tag tag' : UInt32} (subject : c.subject? = some r) (expected : c.tag? = some tag)
    (other : b.tag? = some tag') (differ : tag ≠ tag') : (c.work x).1 = trapped := by
  obtain ⟨held, inside⟩ := h.tagged other
  rw [Call.of_expect subject expected (Work.expect_error held inside differ.symm)]
  rfl

end

end Block.Lies

end GuestHost.Support
