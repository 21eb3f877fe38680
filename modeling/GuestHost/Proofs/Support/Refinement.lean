import GuestHost.Proofs.Handles
import GuestHost.Proofs.Support.Copying
import GuestHost.Proofs.Support.Heap

/-! What calls of the exports do to all the blocks that were handed out. The memory follows
the blocks from call to call. -/

namespace GuestHost.Support

open Machine

/-- There is room for the block that a call asks for, and if the call writes, then through
a reference that was handed out before and is not that of a box. -/
structure Heap.Admits (h : Heap) (t : Buffers) (c : Call) : Prop where
  room : ∀ b, c.block? t = some b → roundUp h.top + b.size ≤ limit
  known : ∀ a i v, c = .arraySet a i v → a = 0 ∨ ∃ p ∈ h, p.address = a
  unboxed : ∀ a i v, c = .arraySet a i v → ∀ p ∈ h, p.address = a → p.block.tag? = none

/-- The blocks after a call, given what it came to. -/
def Heap.after (h : Heap) (t : Buffers) (c : Call) : Except Failure (List Val) → Heap
  | .error _ => h
  | .ok vals =>
    match c.block? t, vals, c with
    | some b, [.i32 v], _ => ⟨v, b⟩ :: h
    | _, _, .arraySet a i v => h.set a i v
    | _, _, _ => h

/-- What a call has to come to, given the blocks and the buffers that it found. -/
structure Call.Meets (c : Call) (h : Heap) (t : Buffers) (r : Except Failure (List Val))
    (t' : Buffers) : Prop where
  handsOut : ∀ b, c.block? t = some b → ∃ v, r = .ok [.i32 v]
  refuses : ∀ b, c = .boxString b → c.block? t = none → ∃ e, r = .error (.host e)
  answers : ∀ p ∈ h, c.subject? = some p.address → ∀ a, c.answer? p.block = some a → r = a
  mistaken : ∀ p ∈ h, c.subject? = some p.address → ∀ tag tag', c.tag? = some tag →
    p.block.tag? = some tag' → tag ≠ tag' → r = trapped
  nil : c.subject? = some 0 → r = c.answerNil
  /-- Nothing but an array has elements to set. -/
  unset : ∀ a i v, c = .arraySet a i v → (∀ elems, ⟨a, .array elems⟩ ∉ h) → ∃ e, r = .error (.trap e)
  copies : ∀ v bs, c = .toHostString v → ⟨v, .string bs⟩ ∈ h → bs.length < 2147483648 →
    r = .ok [.i32 t.fresh.toUInt32] ∧ t.insert ⟨bs.toArray⟩ = some (t.fresh, t')
  /-- A string that is too long for a buffer is refused. -/
  tooLong : ∀ v bs, c = .toHostString v → ⟨v, .string bs⟩ ∈ h → 2147483648 ≤ bs.length →
    r = .error (.host (.invalidLength (UInt32.ofNat bs.length).toInt32)) ∧ t' = t
  others : ∀ k bytes, t.get k = .ok bytes → t'.get k = .ok bytes
  untouched : (∀ v, c ≠ .toHostString v) → t' = t

namespace Sound

variable {x : Space} {h : Heap}

/-- Setting an element of what is neither a box nor an array fails: there is none. -/
theorem arraySet_raw (s : Sound x h) {a i v : UInt32} (known : a = 0 ∨ ∃ p ∈ h, p.address = a)
    (unboxed : ∀ p ∈ h, p.address = a → p.block.tag? = none)
    (unset : ∀ elems, ⟨a, .array elems⟩ ∉ h) :
    ∃ e, (Call.arraySet a i v).work x = (.error (.trap e), x) := by
  have failed : ∃ e, Work.slot a i x = (.error (.trap e), x) := by
    rcases known with rfl | ⟨p, hp, rfl⟩
    · exact ⟨_, Work.slot_nil⟩
    · have raw : ∀ q ∈ h, q.address = p.address → ∃ n, q.block = .raw n := by
        intro q hq same
        have tag := unboxed q hq same
        obtain ⟨address, block⟩ := q
        cases block with
        | raw n => exact ⟨n, rfl⟩
        | integer n => cases tag
        | number y => cases tag
        | string bs => cases tag
        | array elems =>
            obtain rfl : address = p.address := same
            exact absurd hq (unset elems)
      have held : x.memory.Holds p.start (wordBytes 4 (0 : UInt32).toNat) := s.raw_head hp raw
      by_cases inside : p.start + 4 ≤ x.memory.size
      · have none_below : ¬ i < 0 := UInt32.not_lt_zero
        exact ⟨_, Work.slot_error held inside none_below⟩
      · refine ⟨.memoryBounds, ?_⟩
        rw [Work.slot, Work.bind_eq (Work.require_eq (by simpa using (s.lies hp).some_r))]
        refine Work.bind_error ?_
        rw [Work.fetch, Memory.read?, ← Piece.start, if_neg inside]
  obtain ⟨e, failed⟩ := failed
  refine ⟨e, ?_⟩
  rw [Call.work, Work.giving, Work.arraySet, Work.bind_error failed]
  rfl

end Sound

/-- What a call can do to a space: lay a block, set an element, store a buffer, or
nothing at all. -/
inductive Effect (x : Space) (h : Heap) (c : Call) : Except Failure (List Val) × Space → Prop
  | lays {b : Block} {bs : List UInt8} {k : Nat} (asked : c.block? x.buffers = some b)
      (fits : x.next + b.size ≤ limit) (bytes : b.bytes = bs ++ List.replicate k 0) :
      Effect x h c (.ok [.i32 (UInt32.ofNat x.next)], x.laid b.size bs)
  | sets {a i v : UInt32} {elems : List UInt32} (call : c = .arraySet a i v)
      (found : ⟨a, .array elems⟩ ∈ h) (below : i.toNat < elems.length) :
      Effect x h c (.ok [], x.withWord (a.toNat + 4 + 4 * i.toNat) v)
  | copies {v : UInt32} {y : Space} {r : Except Failure (List Val)} (call : c = .toHostString v)
      (beside : Work.Beside x.buffers.fresh x y) : Effect x h c (r, y)
  | stays {r : Except Failure (List Val)} (same : h.after x.buffers c r = h) : Effect x h c (r, x)

theorem Heap.after_block {h : Heap} {t : Buffers} {c : Call} {b : Block} (asked : c.block? t = some b)
    (v : UInt32) : h.after t c (.ok [.i32 v]) = ⟨v, b⟩ :: h := by
  simp only [Heap.after, asked]

/-- Without a block that it asks for, only a call that sets an element changes blocks. -/
theorem Heap.after_eq {h : Heap} {t : Buffers} {c : Call} (none_asked : c.block? t = none)
    (reads : ∀ a i w, c ≠ .arraySet a i w) (r : Except Failure (List Val)) : h.after t c r = h := by
  cases r with
  | error e => rfl
  | ok vals =>
      cases c with
      | arraySet a i w => exact absurd rfl (reads a i w)
      | _ => simp [Heap.after, none_asked]

theorem Sound.effect {x : Space} {h : Heap} (s : Sound x h) {c : Call} (admits : h.Admits x.buffers c) :
    Effect x h c (c.work x) := by
  cases hb : c.block? x.buffers with
  | some b =>
      have fits := admits.room b hb
      rw [← s.next] at fits
      obtain ⟨bs, k, bytes, work⟩ := Call.hands_out hb ⟨s.growable, fits⟩
      rw [work]
      exact .lays hb fits bytes
  | none =>
      have looks {v : UInt32} (subject : c.subject? = some v) (reads : ∀ a i w, c ≠ .arraySet a i w)
          (copies : ∀ w, c ≠ .toHostString w) : Effect x h c (c.work x) := by
        have same := Call.looks (x := x) subject reads copies
        rcases hw : c.work x with ⟨r, y⟩
        rw [hw] at same
        obtain rfl : y = x := same
        exact .stays (Heap.after_eq hb reads r)
      cases c with
      | arraySet a i v =>
          by_cases found : ∃ elems, ⟨a, .array elems⟩ ∈ h
          · obtain ⟨elems, found⟩ := found
            by_cases below : i.toNat < elems.length
            · rw [(s.lies found).arraySet_below below]
              exact .sets rfl found below
            · rw [(s.lies found).arraySet_beyond below]
              exact .stays rfl
          · obtain ⟨e, failed⟩ := s.arraySet_raw (i := i) (v := v) (admits.known a i v rfl)
              (admits.unboxed a i v rfl) (not_exists.mp found)
            rw [failed]
            exact .stays rfl
      | toHostString v =>
          rw [Call.work, Work.giving]
          exact .copies rfl (Work.toHostString_beside v x)
      | boxString buffer =>
          obtain ⟨e, failed⟩ := Call.refused hb
          rw [failed]
          exact .stays rfl
      | alloc n => cases hb
      | boxInteger n => cases hb
      | boxNumber y => cases hb
      | stringNew n => cases hb
      | arrayCreate n => cases hb
      | _ => exact looks rfl (by simp) (by simp)

/-- The space holds the blocks after a call as it held those before. -/
theorem Sound.after {x : Space} {h : Heap} (s : Sound x h) {c : Call} (admits : h.Admits x.buffers c) :
    Sound (c.work x).2 (h.after x.buffers c (c.work x).1) := by
  have effect := s.effect admits
  generalize c.work x = outcome at effect ⊢
  cases effect with
  | lays asked fits bytes =>
      rw [Heap.after_block asked]
      exact s.lay fits bytes
  | sets call found below =>
      subst call
      exact s.set found below
  | @copies v y r call beside =>
      subst call
      rw [Heap.after_eq rfl (by simp)]
      have same : y = { x with buffers := y.buffers } := by
        rw [← beside.memory, ← beside.top]
      rw [same]
      exact s.withBuffers y.buffers
  | stays same =>
      rw [same]
      exact s

/-- Only a string that is copied to the host changes the buffers. -/
theorem Sound.untouched {x : Space} {h : Heap} (s : Sound x h) {c : Call}
    (admits : h.Admits x.buffers c) (keeps : ∀ v, c ≠ .toHostString v) :
    (c.work x).2.buffers = x.buffers := by
  have effect := s.effect admits
  generalize c.work x = outcome at effect ⊢
  cases effect with
  | lays asked fits bytes => rfl
  | sets call found below => rfl
  | copies call beside => exact absurd call (keeps _)
  | stays same => rfl

theorem Sound.others {x : Space} {h : Heap} (s : Sound x h) {c : Call} (admits : h.Admits x.buffers c)
    {k : Handle} {bytes : ByteArray} (live : x.buffers.get k = .ok bytes) :
    (c.work x).2.buffers.get k = .ok bytes := by
  by_cases copies : ∃ v, c = .toHostString v
  · obtain ⟨v, rfl⟩ := copies
    have stored (free : x.buffers.fresh ∉ x.buffers.live) (bs : List UInt8) :
        (x.withBuffer bs).buffers.get k = .ok bytes :=
      Buffers.get_of_insert (Buffers.insert_of_free free) live
    rw [Call.work, Work.giving]
    have copied := Work.toHostString_copied v x
    generalize Work.toHostString v x = outcome at copied ⊢
    cases copied with
    | refused => exact live
    | done free bs => exact stored free bs
    | torn free bs => exact stored free bs
  · rw [s.untouched admits (not_exists.mp copies)]
    exact live

theorem Sound.meets {x : Space} {h : Heap} (s : Sound x h) {c : Call} (admits : h.Admits x.buffers c)
    (fed : ¬ c.Starves x) : c.Meets h x.buffers (c.work x).1 (c.work x).2.buffers where
  handsOut := by
    intro b asked
    have fits := admits.room b asked
    rw [← s.next] at fits
    obtain ⟨bs, k, bytes, work⟩ := Call.hands_out asked ⟨s.growable, fits⟩
    exact ⟨_, by rw [work]⟩
  refuses := by
    rintro b rfl none_asked
    obtain ⟨e, work⟩ := Call.refused none_asked
    exact ⟨e, by rw [work]⟩
  answers := fun p hp subject a answer => (s.lies hp).answers subject answer
  mistaken := fun p hp subject tag tag' expected other differ =>
    (s.lies hp).mistaken subject expected other differ
  nil := Call.answers_nil
  unset := by
    rintro a i v rfl unset
    obtain ⟨e, work⟩ := s.arraySet_raw (i := i) (v := v) (admits.known a i v rfl)
      (admits.unboxed a i v rfl) unset
    exact ⟨e, by rw [work]⟩
  copies := by
    rintro v bs rfl found small
    have free : x.buffers.fresh ∉ x.buffers.live := fun full => fed ((s.lies found).starves small full)
    rw [(s.lies found).copies small free]
    exact ⟨rfl, Buffers.insert_of_free free⟩
  tooLong := by
    rintro v bs rfl found large
    rw [(s.lies found).too_long large]
    exact ⟨rfl, rfl⟩
  others := fun k bytes live => s.others admits live
  untouched := s.untouched admits

end GuestHost.Support
