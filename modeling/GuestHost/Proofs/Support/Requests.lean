import GuestHost.Proofs.Support.Exhaustion
import GuestHost.Proofs.Support.History

/-! Requests for memory, as many as there may be and for sizes of all kinds. While the end of a
block is no larger than a word can tell, the block is there or the call traps. Past that it
depends on where the end comes round to. -/

namespace GuestHost.Support

open Machine
open Relation (ReflTransGen)

/-! ## One request -/

/-- The bytes that a request asks for, the first of which it writes to. -/
structure Demand where
  size : Nat
  written : Nat

def Call.demand? : Call → Option Demand
  | .alloc n => some ⟨n.toNat, 0⟩
  | .stringNew n => some ⟨8 + n.toNat, 8⟩
  | .arrayCreate n => some ⟨4 + 4 * n.toNat, 4⟩
  | _ => none

namespace Call

variable {x : Space} {c : Call}

/-- What is demanded is a block. -/
theorem block_of_demand {d : Demand} (asked : c.demand? = some d) (t : Buffers) :
    ∃ b, c.block? t = some b ∧ b.size = d.size := by
  cases c with
  | alloc n =>
      cases asked
      exact ⟨_, rfl, rfl⟩
  | stringNew n =>
      cases asked
      exact ⟨_, rfl, by rw [Block.size, List.length_replicate]⟩
  | arrayCreate n =>
      cases asked
      exact ⟨_, rfl, by rw [Block.size, List.length_replicate]⟩
  | _ => cases asked

theorem denied (h : x.Bounded) {b : Block} (asked : c.block? x.buffers = some b) (denied : ¬ x.Grants b.size) :
    c.work x = (.error (.trap .unreachable), x.exhausted) := by
  cases c with
  | alloc n =>
      cases asked
      rw [Call.work, Work.giving, Work.alloc_denied h UInt32.ofNat_toNat.symm denied]
      rfl
  | boxInteger n =>
      cases asked
      rw [Call.work, Work.giving, Work.boxWord_denied h denied]
      rfl
  | boxNumber y =>
      cases asked
      rw [Call.work, Work.giving, Work.boxWord_denied h denied]
      rfl
  | boxString buffer =>
      obtain ⟨bytes, live, small, rfl⟩ := block?_boxString asked
      have length : (UInt32.ofNat bytes.size).toNat = bytes.data.size := by
        rw [UInt32.toNat_ofNat', Nat.mod_eq_of_lt (by omega), ByteArray.size_data]
      rw [Block.size, Array.length_toList, ← length] at denied
      rw [Call.work, Work.giving, Work.boxString, Work.bind_eq (Work.bufferSize_eq live small),
        Work.stringNew, Work.bind_error (Work.box_denied h denied)]
      rfl
  | stringNew n =>
      cases asked
      rw [Block.size, List.length_replicate] at denied
      rw [Call.work, Work.giving, Work.stringNew, Work.box_denied h denied]
      rfl
  | arrayCreate n =>
      cases asked
      rw [Block.size, List.length_replicate] at denied
      rw [Call.work, Work.giving, Work.arrayCreate_denied h denied]
      rfl
  | _ => cases asked

/-- A demand that is granted is answered if there is memory to write to. -/
theorem granted (h : x.Bounded) {d : Demand} (asked : c.demand? = some d) (granted : x.Grants d.size) :
    ∃ m : Memory, m.size = (x.advanced d.size).memory.size ∧
      c.work x =
        (if x.next + d.written ≤ m.size then .ok [.i32 (UInt32.ofNat x.next)]
          else .error (.trap .memoryBounds),
          { x.advanced d.size with memory := m }) := by
  cases c with
  | alloc n =>
      cases asked
      have there : x.next + 0 ≤ (x.advanced n.toNat).memory.size :=
        Nat.le_trans h.next_le_size (size_le_reaching _ _)
      refine ⟨_, rfl, ?_⟩
      rw [Call.work, Work.giving, Work.alloc_granted h UInt32.ofNat_toNat.symm granted, if_pos there]
      rfl
  | stringNew n =>
      cases asked
      obtain ⟨m, size, handed⟩ := @Work.box_granted x h 4 n granted
      refine ⟨m, size, ?_⟩
      rw [Call.work, Work.giving, Work.stringNew, handed]
      dsimp only
      split <;> rfl
  | arrayCreate n =>
      cases asked
      obtain ⟨m, size, handed⟩ := Work.arrayCreate_granted h granted
      refine ⟨m, size, ?_⟩
      rw [Call.work, Work.giving, handed]
      dsimp only
      split <;> rfl
  | _ => cases asked

/-- Only to ask for a block moves the end of what was handed out. -/
theorem top_eq (none_asked : c.block? x.buffers = none) : (c.work x).2.top = x.top := by
  have looks {v : UInt32} (subject : c.subject? = some v) (reads : ∀ a i w, c ≠ .arraySet a i w)
      (copies : ∀ w, c ≠ .toHostString w) : (c.work x).2.top = x.top := by
    rw [Call.looks subject reads copies]
  cases c with
  | arraySet a i v =>
      have writes (a : Nat) (bs : List UInt8) (y : Space) : (Work.write a bs y).2.top = y.top := by
        rw [Work.write]
        split <;> rfl
      rw [Call.work, Work.giving, Work.arraySet]
      exact (Work.slot_looks a i).bind_right (P := fun y => y.top = x.top) rfl fun _ => writes _ _ _
  | toHostString v => exact (Work.toHostString_beside v x).top
  | boxString buffer =>
      obtain ⟨e, failed⟩ := Call.refused none_asked
      rw [failed]
  | alloc | boxInteger | boxNumber | stringNew | arrayCreate => cases none_asked
  | _ => exact looks rfl (by simp) (by simp)

end Call

/-! ## All requests so far -/

/-- The addresses that a block was to have. -/
structure Extent where
  start : Nat
  size : Nat
  deriving DecidableEq, Repr

def Extent.stop (e : Extent) : Nat := e.start + e.size

/-- A block is handed out though its end is past all addresses. -/
def Space.Overruns (x : Space) (n : Nat) : Prop := UInt32.size ≤ x.next + n ∧ x.Grants n

instance (x : Space) (n : Nat) : Decidable (x.Overruns n) := inferInstanceAs (Decidable (_ ∧ _))

/-- The blocks that were returned, and whether one was ever handed out past all addresses. -/
structure Account where
  blocks : List Extent := []
  overrun : Bool := false
  deriving DecidableEq, Repr

namespace Account

variable {a : Account} {x : Space} {c : Call}

/-- The account after a call, given what it came to. -/
def after (a : Account) (x : Space) (c : Call) (r : Except Failure (List Val)) : Account :=
  match c.block? x.buffers with
  | none => a
  | some b =>
    { blocks := match r with
        | .ok [.i32 v] => ⟨v.toNat, b.size⟩ :: a.blocks
        | _ => a.blocks
      overrun := a.overrun || decide (x.Overruns b.size) }

/-- What was returned lies below the end of what was handed out, and not where nil is. -/
structure Fits (a : Account) (x : Space) : Prop where
  base : 16 ≤ x.top.toNat
  below : ∀ e ∈ a.blocks, e.stop ≤ x.top.toNat

/-- The account and the space are what calls can have made of them. -/
structure Kept (a : Account) (x : Space) : Prop where
  bounded : x.Bounded
  fits : a.overrun = false → a.Fits x

theorem Fits.next (h : a.Fits x) : x.next ≠ 0 ∧ ∀ e ∈ a.blocks, e.stop ≤ x.next := by
  have above : x.top.toNat ≤ x.next := le_roundUp _
  have base := h.base
  exact ⟨by omega, fun e he => Nat.le_trans (h.below e he) above⟩

/-- A block that is handed out and does not overrun is there. -/
theorem Fits.room (h : a.Fits x) (bounded : x.Bounded) {n : Nat} (granted : x.Grants n)
    (short : x.next + n < UInt32.size) : x.Room n := by
  have stop := Space.toNat_stop_of_lt short
  rw [Space.Grants, Attains] at granted
  split at granted
  · next spare => exact ⟨⟨bounded.paged.unbounded, spare⟩, stop ▸ granted⟩
  · rw [granted] at stop
    exact absurd (Nat.eq_zero_of_add_eq_zero_right stop.symm) h.next.1

theorem Kept.fresh (buffers : Buffers) : ({} : Account).Kept (Space.fresh buffers) :=
  ⟨.fresh buffers, fun _ => ⟨show 16 ≤ 16 by decide, by simp⟩⟩

/-- No call, whatever it is given, spoils the account. -/
theorem Kept.after (h : a.Kept x) (c : Call) : (a.after x c (c.work x).1).Kept (c.work x).2 := by
  refine ⟨c.bounded h.bounded, fun sober => ?_⟩
  cases asked : c.block? x.buffers with
  | none =>
      have same : a.after x c (c.work x).1 = a := by rw [Account.after, asked]
      rw [same] at sober ⊢
      have fits := h.fits sober
      exact ⟨c.top_eq asked ▸ fits.base, c.top_eq asked ▸ fits.below⟩
  | some b =>
      simp only [Account.after, asked, Bool.or_eq_false_iff, decide_eq_false_iff_not] at sober ⊢
      obtain ⟨before, within⟩ := sober
      have fits := h.fits before
      by_cases granted : x.Grants b.size
      · have short : x.next + b.size < UInt32.size := Nat.lt_of_not_le fun long => within ⟨long, granted⟩
        obtain ⟨bs, k, -, work⟩ := Call.hands_out asked (fits.room h.bounded granted short)
        have above := fits.next
        have top : (x.laid b.size bs).top.toNat = x.next + b.size := Space.toNat_stop_of_lt short
        rw [work]
        refine ⟨?_, List.forall_mem_cons.mpr ⟨?_, fun e he => ?_⟩⟩
        · rw [top]
          exact Nat.le_trans (Nat.le_trans fits.base (le_roundUp _)) (Nat.le_add_right _ _)
        · rw [top, h.bounded.toNat_next]
          exact Nat.le_refl _
        · rw [top]
          exact Nat.le_trans (above.2 e he) (Nat.le_add_right _ _)
      · rw [Call.denied h.bounded asked granted]
        exact ⟨fits.base, fits.below⟩

end Account

/-! ## What becomes of a request -/

/-- The call traps, and nothing was handed out. -/
structure Denied (x : Space) (r : Except Failure (List Val)) (y : Space) : Prop where
  trap : ∃ t, r = .error (.trap t)
  still : y.top = x.top

/-- A block is returned and is there. It shares no address with an earlier one, unless one of those
was not there. -/
structure Honoured (a : Account) (x : Space) (n : Nat) (r : Except Failure (List Val)) (y : Space) :
    Prop where
  returned : ∃ v : UInt32, r = .ok [.i32 v] ∧ v.toNat = x.next
  inside : x.next + n ≤ y.memory.size
  moved : y.top.toNat = x.next + n
  some_ref : a.overrun = false → x.next ≠ 0
  above : a.overrun = false → ∀ e ∈ a.blocks, e.stop ≤ x.next

/-- The end of the block came round, and is where the next search begins. A block that is not there
is returned, unless the call traps when it writes to it. -/
structure Overran (x : Space) (d : Demand) (r : Except Failure (List Val)) (y : Space) : Prop where
  moved : y.top.toNat = (x.next + d.size) % UInt32.size
  answer : r = if x.next + d.written ≤ y.memory.size then .ok [.i32 (UInt32.ofNat x.next)]
    else .error (.trap .memoryBounds)

namespace Call

variable {a : Account} {x : Space} {c : Call} {d : Demand}

theorem written_le (asked : c.demand? = some d) : d.written ≤ d.size := by
  cases c with
  | alloc n =>
      cases asked
      exact Nat.zero_le _
  | stringNew n =>
      cases asked
      exact Nat.le_add_right _ _
  | arrayCreate n =>
      cases asked
      exact Nat.le_add_right _ _
  | _ => cases asked

/-- A request never takes memory away. -/
theorem demand_grows (kept : a.Kept x) (asked : c.demand? = some d) :
    x.memory.size ≤ (c.work x).2.memory.size := by
  by_cases handed : x.Grants d.size
  · obtain ⟨m, size, work⟩ := granted kept.bounded asked handed
    rw [work]
    change x.memory.size ≤ m.size
    rw [size]
    exact size_le_reaching _ _
  · obtain ⟨b, block, size⟩ := block_of_demand asked x.buffers
    rw [denied kept.bounded block (size ▸ handed)]
    exact kept.bounded.paged.size_le_filled

theorem demand_denied (kept : a.Kept x) (asked : c.demand? = some d) (refused : ¬ x.Grants d.size) :
    Denied x (c.work x).1 (c.work x).2 := by
  obtain ⟨b, block, size⟩ := block_of_demand asked x.buffers
  rw [denied kept.bounded block (size ▸ refused)]
  exact ⟨⟨_, rfl⟩, rfl⟩

theorem demand_honoured (kept : a.Kept x) (asked : c.demand? = some d) (handed : x.Grants d.size)
    (short : x.next + d.size < UInt32.size) : Honoured a x d.size (c.work x).1 (c.work x).2 := by
  obtain ⟨m, size, work⟩ := granted kept.bounded asked handed
  have stop := Space.toNat_stop_of_lt short
  have inside : x.next + d.size ≤ m.size := by
    rw [size, ← stop]
    exact le_size_reaching _ _
  rw [work, if_pos (Nat.le_trans (Nat.add_le_add_left (written_le asked) _) inside)]
  exact ⟨⟨_, rfl, kept.bounded.toNat_next⟩, inside, stop, fun sober => (kept.fits sober).next.1,
    fun sober => (kept.fits sober).next.2⟩

theorem demand_overran (kept : a.Kept x) (asked : c.demand? = some d) (handed : x.Grants d.size) :
    Overran x d (c.work x).1 (c.work x).2 := by
  obtain ⟨m, -, work⟩ := granted kept.bounded asked handed
  rw [work]
  exact ⟨Space.toNat_stop x d.size, rfl⟩

end Call

/-! ## Any calls of an instance -/

/-- One call of an export with any arguments, or whatever the host does with its buffers between
calls. The account follows. -/
inductive Move (env : Environment) (inst : Nat) : Store × Account → Store × Account → Prop
  | between (s : Store) (a : Account) (buffers : Buffers) :
      Move env inst (s, a) ({ s with host := { s.host with buffers } }, a)
  | call {s s' : Store} {a : Account} {x : Space} {c : Call} {func fuel : Nat}
      {r : Except Failure (List Val)} (here : space? s inst = some x)
      (exported : s.exportedFunc? inst c.name = some func)
      (ended : invoke env fuel s func c.args = some (r, s')) : Move env inst (s, a) (s', a.after x c r)

variable {env : Environment} {inst : Nat}

/-- An instance in a store, and an account that is right. -/
def Reckoned (inst : Nat) (s : Store) (a : Account) : Prop :=
  ∃ (p : Place) (x : Space), p.inst = inst ∧ p.Stands s ∧ p.Owns s x ∧ a.Kept x

theorem Fresh.reckoned {s : Store} (fresh : Fresh inst s) : Reckoned inst s {} := by
  obtain ⟨p, buffers, hp, stands, owns⟩ := fresh.placed
  exact ⟨p, _, hp, stands, owns, .fresh buffers⟩

/-- A move leaves the instance in its place, and of its space what a call or the host makes of it. -/
theorem Move.follows {p : Place} {x : Space} {b e : Store × Account} (move : Move env p.inst b e)
    (stands : p.Stands b.1) (owns : p.Owns b.1 x) (kept : b.2.Kept x) :
    ∃ y, p.Stands e.1 ∧ p.Owns e.1 y ∧ e.2.Kept y ∧
      ((∃ buffers, y = { x with buffers }) ∨ ∃ c : Call, y = (c.work x).2) := by
  cases move with
  | between s a buffers =>
      refine ⟨{ x with buffers }, stands.withBuffers buffers, owns.withBuffers buffers, ?_, .inl ⟨_, rfl⟩⟩
      exact ⟨⟨kept.bounded.paged, kept.bounded.top, kept.bounded.inside⟩, fun sober =>
        ⟨(kept.fits sober).base, (kept.fits sober).below⟩⟩
  | @call s s' a x' c func fuel r here exported ended =>
      have same := stands.space?_eq.mpr owns
      cases here.symm.trans same
      cases exported.symm.trans (stands.exportedFunc? c)
      rw [← show p.put s x = s from owns.put_eq] at ended
      obtain ⟨rfl, rfl⟩ := stands.call_ended ended
      exact ⟨_, stands.put _, stands.owns_put _, kept.after c, .inr ⟨c, rfl⟩⟩

theorem Move.reckoned {b e : Store × Account} (move : Move env inst b e) (before : Reckoned inst b.1 b.2) :
    Reckoned inst e.1 e.2 := by
  obtain ⟨p, x, rfl, stands, owns, kept⟩ := before
  obtain ⟨y, stands, owns, kept, -⟩ := move.follows stands owns kept
  exact ⟨p, y, rfl, stands, owns, kept⟩

theorem moves_reckoned {b e : Store × Account} (moves : ReflTransGen (Move env inst) b e)
    (before : Reckoned inst b.1 b.2) : Reckoned inst e.1 e.2 := by
  induction moves with
  | refl => exact before
  | tail _ last ih => exact last.reckoned ih

/-- Whatever was asked of an instance since it came to life, a request for a block that ends
within what a word can tell is honoured, or it traps and moves nothing. A request for a larger
one traps as well, unless the end of the block has come round to where memory may still reach. -/
theorem requests_settled {s₀ s : Store} {a : Account} (fresh : Fresh inst s₀)
    (moves : ReflTransGen (Move env inst) (s₀, {}) (s, a)) :
    ∃ x, space? s inst = some x ∧ ∀ c d, c.demand? = some d →
      ∃ r s' y, Serves env inst s c r s' ∧ space? s' inst = some y ∧ x.memory.size ≤ y.memory.size ∧
        (x.next + d.size < UInt32.size → Denied x r y ∨ Honoured a x d.size r y) ∧
        (UInt32.size ≤ x.next + d.size → if x.Grants d.size then Overran x d r y else Denied x r y) := by
  obtain ⟨p, x, rfl, stands, owns, kept⟩ := moves_reckoned moves fresh.reckoned
  refine ⟨x, stands.space?_eq.mpr owns, fun c d asked => ?_⟩
  obtain ⟨_, block, -⟩ := Call.block_of_demand asked x.buffers
  have served := stands.serves env (Call.fed_of_block block x)
  rw [owns.put_eq] at served
  refine ⟨_, _, _, served, (stands.put _).space?_eq.mpr (stands.owns_put _), Call.demand_grows kept asked,
    fun short => ?_, fun _ => ?_⟩
  · by_cases handed : x.Grants d.size
    · exact .inr (Call.demand_honoured kept asked handed short)
    · exact .inl (Call.demand_denied kept asked handed)
  · split
    · next handed => exact Call.demand_overran kept asked handed
    · next refused => exact Call.demand_denied kept asked refused

/-- After 8 bytes at 16 there may be 8 more at 24; but one byte less than there are addresses is
handed out there too, and the next block would begin below. -/
theorem wrapped_settled : ∃ s₀ s x, Fresh 0 s₀ ∧
    ReflTransGen (Move builtinEnv 0) (s₀, {}) (s, { blocks := [⟨16, 8⟩] }) ∧
    space? s 0 = some x ∧ x.next = 24 ∧
    (∃ r s' y, Serves builtinEnv 0 s (.alloc 8) r s' ∧ space? s' 0 = some y ∧
      (Denied x r y ∨ Honoured { blocks := [⟨16, 8⟩] } x 8 r y)) ∧
    ∃ s' y, Serves builtinEnv 0 s (.alloc 0xFFFFFFFF) (.ok [.i32 24]) s' ∧ space? s' 0 = some y ∧
      y.top.toNat = 23 := by
  obtain ⟨p, s₀, fresh, hp, stands, owns⟩ := fresh_bare
  let x := ((Call.alloc 8).work (Space.fresh {})).2
  have first := stands.serves builtinEnv (c := .alloc 8) (x := Space.fresh {}) id
  have result : ((Call.alloc 8).work (Space.fresh {})).1 = .ok [.i32 16] := by decide +kernel
  have next : x.next = 24 := by decide +kernel
  have size : x.memory.size = 65536 := by decide +kernel
  rw [owns.put_eq, hp, result] at first
  obtain ⟨func, exported, n, ended⟩ := first
  have here : space? s₀ 0 = some (Space.fresh {}) := hp ▸ stands.space?_eq.mpr owns
  have account : Account.after {} (Space.fresh {}) (.alloc 8) (.ok [.i32 16]) = { blocks := [⟨16, 8⟩] } := by
    decide +kernel
  have moves : ReflTransGen (Move builtinEnv 0) (s₀, {}) (p.put s₀ x, { blocks := [⟨16, 8⟩] }) :=
    account ▸ .single (.call here exported (ended n (Nat.le_refl n)))
  obtain ⟨x', found, settled⟩ := requests_settled fresh moves
  have same : space? (p.put s₀ x) 0 = some x := hp ▸ (stands.put x).space?_eq.mpr (stands.owns_put x)
  cases same.symm.trans found
  have granted : x.Grants 4294967295 := by decide +kernel
  obtain ⟨r, s', y, served, there, -, short, -⟩ := settled (.alloc 8) ⟨8, 0⟩ rfl
  obtain ⟨r', s'', y', served', there', grown, -, long⟩ := settled (.alloc 0xFFFFFFFF) ⟨4294967295, 0⟩ rfl
  rw [if_pos granted, next] at long
  have overran := long (by decide)
  have answer := overran.answer
  rw [next, if_pos (show 24 + 0 ≤ y'.memory.size by omega)] at answer
  rw [answer] at served'
  refine ⟨s₀, _, x, fresh, moves, same, next, ⟨r, s', y, served, there, short (by rw [next]; decide)⟩, s'', y',
    served', there', ?_⟩
  rw [overran.moved, next]
  rfl

end GuestHost.Support
