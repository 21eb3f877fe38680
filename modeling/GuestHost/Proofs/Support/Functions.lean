import GuestHost.Proofs.Handles
import GuestHost.Proofs.Support.Execution

/-! Every function of the support module does its work, one after the other in the order
in which they call each other. -/

namespace GuestHost.Support.Place

open Machine
open Wasm (Instr)

variable {env : Environment} {p : Place} {s : Store}

/-! ## Capabilities -/

section

variable (h : p.Stands s)

include h

/-- A buffer is made unless every handle is live, in which case the host looks for one forever. -/
theorem Stands.tries_bufferNew (n : UInt32) (x : Space) :
    p.Tries env (¬ n.toInt32 < 0 ∧ x.buffers.fresh ∈ x.buffers.live) s x p.bufferNew [.i32 n]
      (Work.bufferNew n) (fun b => [.i32 b]) 0 := by
  refine fun ws _ => ⟨fun ⟨positive, full⟩ => ?stuck, fun free => ?leads⟩
  case stuck =>
    have found : (p.put s x).funcs[p.bufferNew]? = some (.host Capability.bufferNew) := h.bufferNew
    refine .of_step (step_stuck found rfl ?_)
    simp [Capability.run, positive, Capability.freshBuffer, Host.insert, Buffers.insert, Place.put, full]
  case leads =>
    refine capability_leads h.bufferNew rfl (fun _ => rfl) fun host buffers => ?_
    by_cases negative : n.toInt32 < 0
    · rw [Work.bufferNew, if_pos negative]
      exact ⟨x.buffers, rfl, by simp [negative, Capability.hostError, Except.map, ← buffers]⟩
    · have free : x.buffers.fresh ∉ x.buffers.live := fun full => free ⟨negative, full⟩
      rw [Work.bufferNew, if_neg negative, Buffers.insert_of_free free]
      refine ⟨_, rfl, ?_⟩
      simp [negative, Capability.freshBuffer, Host.insert, Except.map, buffers, Buffers.insert_of_free free,
        Val.ofInt32]

theorem Stands.does_bufferSet (buffer index w : UInt32) :
    p.Does env s p.bufferSet [.i32 buffer, .i32 index, .i32 w] (Work.bufferSet buffer index w)
      (fun _ => []) 0 := by
  refine does_of_capability h.bufferSet rfl (fun _ => rfl) fun x host buffers => ?_
  unfold Work.bufferSet
  rw [← buffers]
  cases hb : host.buffers.get buffer.toInt32 with
  | error e => exact ⟨x.buffers, rfl, by simp [hb, Capability.hostError, Except.map, ← buffers]⟩
  | ok bytes =>
      dsimp only
      split
      · next inside => exact ⟨_, rfl, by simp [hb, inside, Except.map]⟩
      · next outside =>
          exact ⟨x.buffers, rfl, by simp [hb, outside, Capability.hostError, Except.map, ← buffers]⟩

theorem Stands.does_bufferGet (buffer index : UInt32) :
    p.Does env s p.bufferGet [.i32 buffer, .i32 index] (Work.bufferGet buffer index)
      (fun b => [.i32 b]) 0 := by
  refine does_of_capability h.bufferGet rfl (fun _ => rfl) fun x host buffers => ?_
  unfold Work.bufferGet
  rw [← buffers]
  cases hb : host.buffers.get buffer.toInt32 with
  | error e => exact ⟨x.buffers, rfl, by simp [hb, Capability.hostError, Except.map, ← buffers]⟩
  | ok bytes =>
      dsimp only
      split
      · next inside => exact ⟨x.buffers, rfl, by simp [hb, inside, Except.map, ← buffers]⟩
      · next outside =>
          exact ⟨x.buffers, rfl, by simp [hb, outside, Capability.hostError, Except.map, ← buffers]⟩

theorem Stands.does_bufferSize (buffer : UInt32) :
    p.Does env s p.bufferSize [.i32 buffer] (Work.bufferSize buffer) (fun n => [.i32 n]) 0 := by
  refine does_of_capability h.bufferSize rfl (fun _ => rfl) fun x host buffers => ?_
  unfold Work.bufferSize
  rw [← buffers]
  cases hb : host.buffers.get buffer.toInt32 with
  | error e => exact ⟨x.buffers, rfl, by simp [hb, Capability.hostError, Except.map, ← buffers]⟩
  | ok bytes =>
      dsimp only
      split
      · next inside => exact ⟨x.buffers, rfl, by simp [hb, inside, Except.map, ← buffers]⟩
      · next outside =>
          exact ⟨x.buffers, rfl, by simp [hb, outside, Capability.hostError, Except.map, ← buffers]⟩

end

/-! ## Allocation -/

/-- One turn of the loop that adds pages, and the loop. -/
abbrev growTurn : List Instr :=
  [get 2, .plain .memorySize, const 16, num .i32Shl, num .i32LeU, .branchIf 1,
   const 1, .plain .memoryGrow, const 0xFFFFFFFF, num .i32Eq, .when .empty [Support.trap],
   .branch 0]

abbrev growLoop : Instr := .loop .empty growTurn

section

variable (h : p.Rooted s)

include h

section

variable {ws : List Waiting} {arity depth : Nat} {stack : List Val} {code : List Instr}
  {labels : List Label}

/-- A turn ends the loop, or adds a page and comes back to the loop. -/
theorem Rooted.growTurn_leads {size pointer last : UInt32} {rest : Work Unit} (x : Space)
    (again : ∀ y, Work.grow x = (.ok (), y) →
      Leads env (p.here s ws y arity depth [.i32 size, .i32 pointer, .i32 last] [] [growLoop]
          (⟨0, code, code, stack⟩ :: labels))
        (p.arrive s ws (rest y) fun _ z =>
          p.here s ws z arity depth [.i32 size, .i32 pointer, .i32 last] stack code labels)) :
    Leads env (p.here s ws x arity depth [.i32 size, .i32 pointer, .i32 last] [] [growLoop]
        (⟨0, code, code, stack⟩ :: labels))
      (p.arrive s ws ((do
          if last ≤ (← Work.size) then return () else do Work.grow; rest : Work Unit) x) fun _ z =>
        p.here s ws z arity depth [.i32 size, .i32 pointer, .i32 last] stack code labels) := by
  refine .steps 2 (q := p.here s ws x arity depth [.i32 size, .i32 pointer, .i32 last] [.i32 last]
    (growTurn.drop 1) (⟨0, [growLoop], [], []⟩ :: ⟨0, code, code, stack⟩ :: labels)) rfl ?_
  refine arrive_bind h.size fun w y measured => ?_
  obtain ⟨rfl, rfl⟩ := Work.size_eq_ok measured
  refine .steps 1 (q := p.here s ws x arity depth [.i32 size, .i32 pointer, .i32 last]
    [.ofBool (last ≤ UInt32.ofNat x.memory.pages <<< 16)] (growTurn.drop 5)
    (⟨0, [growLoop], [], []⟩ :: ⟨0, code, code, stack⟩ :: labels)) rfl ?_
  by_cases enough : last ≤ UInt32.ofNat x.memory.pages <<< 16
  · rw [decide_eq_true enough, if_pos enough]
    exact ⟨1, rfl⟩
  · rw [decide_eq_false enough, if_neg enough]
    refine .steps 1 (q := p.here s ws x arity depth [.i32 size, .i32 pointer, .i32 last] []
      (growTurn.drop 6) (⟨0, [growLoop], [], []⟩ :: ⟨0, code, code, stack⟩ :: labels)) rfl ?_
    refine arrive_bind h.grow fun _ y grew => ?_
    exact .steps 1 rfl (again y grew)

theorem Rooted.growLoop_leads {size pointer last : UInt32} (n : Nat) (x : Space)
    (spare : x.memory.bound - x.memory.pages ≤ n) :
    Leads env (p.here s ws x arity depth [.i32 size, .i32 pointer, .i32 last] [] [growLoop]
        (⟨0, code, code, stack⟩ :: labels))
      (p.arrive s ws (Work.reachWithin last n x) fun _ z =>
        p.here s ws z arity depth [.i32 size, .i32 pointer, .i32 last] stack code labels) := by
  induction n generalizing x with
  | zero =>
      refine h.growTurn_leads x fun y grew => ?_
      have := (Work.grow_eq_ok grew).1
      omega
  | succ n ih =>
      refine h.growTurn_leads x fun y grew => ih y ?_
      obtain ⟨_, rfl⟩ := Work.grow_eq_ok grew
      change x.memory.bound - (x.memory.pages + 1) ≤ n
      omega

end

theorem Rooted.does_alloc (size : UInt32) :
    p.Does env s (p.base + 0) [.i32 size] (Work.alloc size) (fun v => [.i32 v]) 0 := by
  intro x ws shallow
  refine (h.enter rfl shallow).trans ?_
  refine arrive_bind h.heapGet fun top y first => ?_
  cases first
  refine .steps 9 (q := p.here s ws x 1 (depthAbove ws) [.i32 size, .i32 (Work.aligned x.top),
    .i32 (Work.aligned x.top + size)] [] (allocCode.drop 10) []) rfl ?_
  refine .steps 1 (q := p.here s ws x 1 (depthAbove ws) [.i32 size, .i32 (Work.aligned x.top),
    .i32 (Work.aligned x.top + size)] [] [growLoop]
    [⟨0, allocCode.drop 11, allocCode.drop 11, []⟩]) rfl ?_
  refine arrive_bind (h.growLoop_leads _ x (Nat.le_refl _)) fun _ y _ => ?_
  refine .steps 1 (q := p.here s ws y 1 (depthAbove ws) [.i32 size, .i32 (Work.aligned x.top),
    .i32 (Work.aligned x.top + size)] [.i32 (Work.aligned x.top + size)] (allocCode.drop 12) []) rfl ?_
  refine arrive_bind h.heapSet fun _ y _ => ?_
  exact ⟨2, rfl⟩

/-! ## Boxes -/

theorem Rooted.does_box (tag length : UInt32) :
    p.Does env s (p.base + 1) [.i32 tag, .i32 length] (Work.box tag length) (fun v => [.i32 v]) 1 := by
  intro x ws shallow
  refine (h.enter rfl (Nat.le_of_succ_le shallow)).trans ?_
  refine .steps 3 (q := p.here s ws x 1 (depthAbove ws) [.i32 tag, .i32 length, .i32 0]
    [.i32 (length + 8)] (boxCode.drop 3) []) rfl ?_
  refine arrive_bind (h.callOwn rfl (h.does_alloc _) rfl shallow) fun v y _ => ?_
  refine .steps 3 (q := p.here s ws y 1 (depthAbove ws) [.i32 tag, .i32 length, .i32 v]
    [.i32 tag, .i32 v] (boxCode.drop 7) []) rfl ?_
  refine arrive_bind (h.store rfl) fun _ y _ => ?_
  refine .steps 2 (q := p.here s ws y 1 (depthAbove ws) [.i32 tag, .i32 length, .i32 v]
    [.i32 length, .i32 v] (boxCode.drop 10) []) rfl ?_
  refine arrive_bind (h.store rfl) fun _ y _ => ?_
  exact ⟨2, rfl⟩

theorem Rooted.does_expect (v tag : UInt32) :
    p.Does env s (p.base + 2) [.i32 v, .i32 tag] (Work.expect v tag) (fun _ => []) 0 := by
  intro x ws shallow
  refine (h.enter rfl shallow).trans ?_
  refine .steps 2 (q := p.here s ws x 0 (depthAbove ws) [.i32 v, .i32 tag] [.ofBool (v == 0)]
    (expectCode.drop 2) []) rfl ?_
  refine arrive_bind (require (b := v != 0) (by simp [bne])) fun _ y _ => ?_
  refine .steps 1 (q := p.here s ws y 0 (depthAbove ws) [.i32 v, .i32 tag] [.i32 v]
    (expectCode.drop 4) []) rfl ?_
  refine arrive_bind h.load fun w y _ => ?_
  refine .steps 2 (q := p.here s ws y 0 (depthAbove ws) [.i32 v, .i32 tag]
    [.ofBool (UInt32.ofNat w != tag)] (expectCode.drop 7) []) rfl ?_
  exact arrive_last (require rfl) fun _ _ => ⟨1, rfl⟩

/-- Functions that end with the first word of what they are given. -/
theorem Rooted.head_leads {ws : List Waiting} {depth : Nat} (v : UInt32) (x : Space) :
    Leads env
      (p.here s ws x 1 depth [.i32 v] [] getTypeNumCode [])
      (p.arrive s ws (Work.head v x) fun w y => .next ⟨p.put s y, .leave [.i32 w], ws⟩) := by
  unfold Work.head
  refine .steps 2 (q := p.here s ws x 1 depth [.i32 v] [.ofBool (v == 0)]
    (getTypeNumCode.drop 2) []) rfl ?_
  by_cases zero : v = 0
  · rw [if_pos zero, beq_iff_eq.mpr zero]
    exact ⟨4, rfl⟩
  · rw [if_neg zero, beq_eq_false_iff_ne.mpr zero]
    refine .steps 2 (q := p.here s ws x 1 depth [.i32 v] [.i32 v] [Support.load .i32 0] [⟨1, [], [], []⟩]) rfl ?_
    refine arrive_bind h.load fun w y _ => ?_
    exact ⟨2, rfl⟩

theorem Rooted.does_getTypeNum (v : UInt32) :
    p.Does env s (p.base + 3) [.i32 v] (Work.head v) (fun w => [.i32 w]) 0 := by
  intro x ws shallow
  exact (h.enter rfl shallow).trans (h.head_leads v x)

theorem Rooted.does_arraySize (v : UInt32) :
    p.Does env s (p.base + 17) [.i32 v] (Work.head v) (fun w => [.i32 w]) 0 := by
  intro x ws shallow
  exact (h.enter rfl shallow).trans (h.head_leads v x)

theorem Rooted.does_boxInteger (n : UInt64) :
    p.Does env s (p.base + 4) [.i64 n] (Work.boxWord 2 n) (fun v => [.i32 v]) 2 := by
  intro x ws shallow
  refine (h.enter rfl (by omega)).trans ?_
  refine .steps 2 (q := p.here s ws x 1 (depthAbove ws) [.i64 n, .i32 0] [.i32 8, .i32 2]
    (boxIntegerCode.drop 2) []) rfl ?_
  refine arrive_bind (h.callOwn rfl (h.does_box 2 8) rfl (by omega)) fun v y _ => ?_
  refine .steps 3 (q := p.here s ws y 1 (depthAbove ws) [.i64 n, .i32 v] [.i64 n, .i32 v]
    (boxIntegerCode.drop 6) []) rfl ?_
  refine arrive_bind (h.store rfl) fun _ y _ => ?_
  exact ⟨2, rfl⟩

theorem Rooted.does_boxNumber (b : Binary64) :
    p.Does env s (p.base + 6) [.f64 b] (Work.boxWord 3 b.bits) (fun v => [.i32 v]) 2 := by
  intro x ws shallow
  refine (h.enter rfl (by omega)).trans ?_
  refine .steps 2 (q := p.here s ws x 1 (depthAbove ws) [.f64 b, .i32 0] [.i32 8, .i32 3]
    (boxNumberCode.drop 2) []) rfl ?_
  refine arrive_bind (h.callOwn rfl (h.does_box 3 8) rfl (by omega)) fun v y _ => ?_
  refine .steps 3 (q := p.here s ws y 1 (depthAbove ws) [.f64 b, .i32 v] [.f64 b, .i32 v]
    (boxNumberCode.drop 6) []) rfl ?_
  refine arrive_bind (h.store rfl) fun _ y _ => ?_
  exact ⟨2, rfl⟩

theorem Rooted.does_toHostInteger (v : UInt32) :
    p.Does env s (p.base + 5) [.i32 v] (Work.unboxWord 2 v) (fun n => [.i64 n]) 1 := by
  intro x ws shallow
  refine (h.enter rfl (Nat.le_of_succ_le shallow)).trans ?_
  refine .steps 2 (q := p.here s ws x 1 (depthAbove ws) [.i32 v] [.i32 2, .i32 v]
    (toHostIntegerCode.drop 2) []) rfl ?_
  refine arrive_bind (h.callOwn rfl (h.does_expect v 2) rfl shallow) fun _ y _ => ?_
  refine .steps 1 (q := p.here s ws y 1 (depthAbove ws) [.i32 v] [.i32 v]
    (toHostIntegerCode.drop 4) []) rfl ?_
  refine arrive_bind h.load fun w y _ => ?_
  exact ⟨1, rfl⟩

theorem Rooted.does_toHostNumber (v : UInt32) :
    p.Does env s (p.base + 7) [.i32 v] (Work.unboxWord 3 v) (fun n => [.f64 ⟨n⟩]) 1 := by
  intro x ws shallow
  refine (h.enter rfl (Nat.le_of_succ_le shallow)).trans ?_
  refine .steps 2 (q := p.here s ws x 1 (depthAbove ws) [.i32 v] [.i32 3, .i32 v]
    (toHostNumberCode.drop 2) []) rfl ?_
  refine arrive_bind (h.callOwn rfl (h.does_expect v 3) rfl shallow) fun _ y _ => ?_
  refine .steps 1 (q := p.here s ws y 1 (depthAbove ws) [.i32 v] [.i32 v]
    (toHostNumberCode.drop 4) []) rfl ?_
  refine arrive_bind h.load fun w y _ => ?_
  exact ⟨1, rfl⟩

/-! ## Strings -/

theorem Rooted.does_stringNew (length : UInt32) :
    p.Does env s (p.base + 8) [.i32 length] (Work.stringNew length) (fun v => [.i32 v]) 2 := by
  intro x ws shallow
  refine (h.enter rfl (by omega)).trans ?_
  refine .steps 2 (q := p.here s ws x 1 (depthAbove ws) [.i32 length] [.i32 length, .i32 4]
    (stringNewCode.drop 2) []) rfl ?_
  exact arrive_last (h.callOwn rfl (h.does_box 4 length) rfl (by omega)) fun _ _ => ⟨1, rfl⟩

theorem Rooted.does_stringBytes (v : UInt32) :
    p.Does env s (p.base + 9) [.i32 v] (Work.stringBytes v) (fun a => [.i32 a]) 1 := by
  intro x ws shallow
  refine (h.enter rfl (Nat.le_of_succ_le shallow)).trans ?_
  refine .steps 2 (q := p.here s ws x 1 (depthAbove ws) [.i32 v] [.i32 4, .i32 v]
    (stringBytesCode.drop 2) []) rfl ?_
  refine arrive_bind (h.callOwn rfl (h.does_expect v 4) rfl shallow) fun _ y _ => ?_
  exact ⟨4, rfl⟩

theorem Rooted.does_stringLen (v : UInt32) :
    p.Does env s (p.base + 10) [.i32 v] (Work.stringLen v) (fun n => [.i32 n]) 1 := by
  intro x ws shallow
  refine (h.enter rfl (Nat.le_of_succ_le shallow)).trans ?_
  refine .steps 2 (q := p.here s ws x 1 (depthAbove ws) [.i32 v] [.i32 4, .i32 v]
    (stringLenCode.drop 2) []) rfl ?_
  refine arrive_bind (h.callOwn rfl (h.does_expect v 4) rfl shallow) fun _ y _ => ?_
  refine .steps 1 (q := p.here s ws y 1 (depthAbove ws) [.i32 v] [.i32 v]
    (stringLenCode.drop 4) []) rfl ?_
  refine arrive_bind h.load fun w y _ => ?_
  exact ⟨1, rfl⟩

end

/-! ## Copying -/

/-- The loop that copies a buffer's bytes into a string, and the one that copies them back. -/
abbrev copyInTurn : List Instr :=
  [get 3, get 1, num .i32GeU, .branchIf 1,
   get 2, get 3, num .i32Add, get 0, get 3, .call Support.bufferGet, store .i32To8 8,
   get 3, const 1, num .i32Add, Support.put 3,
   .branch 0]

abbrev copyInLoop : Instr := .loop .empty copyInTurn

abbrev copyOutTurn : List Instr :=
  [get 3, get 1, num .i32GeU, .branchIf 1,
   get 2, get 3, get 0, get 3, num .i32Add, Support.load .i32From8U 8, .call Support.bufferSet,
   get 3, const 1, num .i32Add, Support.put 3,
   .branch 0]

abbrev copyOutLoop : Instr := .loop .empty copyOutTurn

section

variable (h : p.Stands s)

include h

section

variable {ws : List Waiting} {arity depth : Nat} {stack : List Val} {code : List Instr}
  {labels : List Label}

omit h in
/-- An index that has more bytes to go is below the length, and one more byte leads to
the next index. -/
theorem index_succ {i length : UInt32} {n : Nat} (all : i.toNat + (n + 1) = length.toNat) :
    ¬ length ≤ i ∧ (i + 1).toNat + n = length.toNat := by
  have bound := length.toNat_lt
  have one : (1 : UInt32).toNat = 1 := rfl
  rw [UInt32.le_iff_toNat_le, UInt32.toNat_add, one, Nat.mod_eq_of_lt (by omega)]
  omega

theorem Stands.copyInLoop_leads {buffer length v : UInt32} (shallow : depth + 1 ≤ maxDepth)
    (n : Nat) (i : UInt32) (x : Space) (all : i.toNat + n = length.toNat) :
    Leads env (p.here s ws x arity depth [.i32 buffer, .i32 length, .i32 v, .i32 i] [] [copyInLoop]
        (⟨0, code, code, stack⟩ :: labels))
      (p.arrive s ws (Work.copyIn buffer v n i x) fun _ z =>
        p.here s ws z arity depth [.i32 buffer, .i32 length, .i32 v, .i32 length] stack code labels) := by
  induction n generalizing i x with
  | zero =>
      obtain rfl : i = length := UInt32.toNat_inj.mp all
      refine .steps 4 (q := p.here s ws x arity depth [.i32 buffer, .i32 i, .i32 v, .i32 i]
        [.ofBool (i ≤ i)] (copyInTurn.drop 3)
        (⟨0, [copyInLoop], [], []⟩ :: ⟨0, code, code, stack⟩ :: labels)) rfl ?_
      rw [decide_eq_true (UInt32.le_refl i)]
      exact ⟨1, rfl⟩
  | succ n ih =>
      obtain ⟨more, all⟩ := index_succ all
      refine .steps 4 (q := p.here s ws x arity depth [.i32 buffer, .i32 length, .i32 v, .i32 i]
        [.ofBool (length ≤ i)] (copyInTurn.drop 3)
        (⟨0, [copyInLoop], [], []⟩ :: ⟨0, code, code, stack⟩ :: labels)) rfl ?_
      rw [decide_eq_false more]
      refine .steps 6 (q := p.here s ws x arity depth [.i32 buffer, .i32 length, .i32 v, .i32 i]
        [.i32 i, .i32 buffer, .i32 (v + i)] (copyInTurn.drop 9)
        (⟨0, [copyInLoop], [], []⟩ :: ⟨0, code, code, stack⟩ :: labels)) rfl ?_
      refine arrive_bind (h.call (h.does_bufferGet buffer i) rfl h.bufferGet rfl shallow) fun b y _ => ?_
      refine arrive_bind (h.store rfl) fun _ y _ => ?_
      exact .steps 5 rfl (ih (i + 1) y all)

theorem Stands.copyOutLoop_leads {v length buffer : UInt32} (shallow : depth + 1 ≤ maxDepth)
    (n : Nat) (i : UInt32) (x : Space) (all : i.toNat + n = length.toNat) :
    Leads env (p.here s ws x arity depth [.i32 v, .i32 length, .i32 buffer, .i32 i] [] [copyOutLoop]
        (⟨0, code, code, stack⟩ :: labels))
      (p.arrive s ws (Work.copyOut v buffer n i x) fun _ z =>
        p.here s ws z arity depth [.i32 v, .i32 length, .i32 buffer, .i32 length] stack code labels) := by
  induction n generalizing i x with
  | zero =>
      obtain rfl : i = length := UInt32.toNat_inj.mp all
      refine .steps 4 (q := p.here s ws x arity depth [.i32 v, .i32 i, .i32 buffer, .i32 i]
        [.ofBool (i ≤ i)] (copyOutTurn.drop 3)
        (⟨0, [copyOutLoop], [], []⟩ :: ⟨0, code, code, stack⟩ :: labels)) rfl ?_
      rw [decide_eq_true (UInt32.le_refl i)]
      exact ⟨1, rfl⟩
  | succ n ih =>
      obtain ⟨more, all⟩ := index_succ all
      refine .steps 4 (q := p.here s ws x arity depth [.i32 v, .i32 length, .i32 buffer, .i32 i]
        [.ofBool (length ≤ i)] (copyOutTurn.drop 3)
        (⟨0, [copyOutLoop], [], []⟩ :: ⟨0, code, code, stack⟩ :: labels)) rfl ?_
      rw [decide_eq_false more]
      refine .steps 6 (q := p.here s ws x arity depth [.i32 v, .i32 length, .i32 buffer, .i32 i]
        [.i32 (v + i), .i32 i, .i32 buffer] (copyOutTurn.drop 9)
        (⟨0, [copyOutLoop], [], []⟩ :: ⟨0, code, code, stack⟩ :: labels)) rfl ?_
      refine arrive_bind h.load fun b y _ => ?_
      refine arrive_bind (h.call (h.does_bufferSet buffer i (UInt32.ofNat b)) rfl h.bufferSet rfl
        shallow) fun _ y _ => ?_
      exact .steps 5 rfl (ih (i + 1) y all)

end

theorem Stands.does_boxString (buffer : UInt32) :
    p.Does env s (p.base + 11) [.i32 buffer] (Work.boxString buffer) (fun v => [.i32 v]) 3 := by
  intro x ws shallow
  refine (h.enter rfl (by omega)).trans ?_
  refine .steps 1 (q := p.here s ws x 1 (depthAbove ws) [.i32 buffer, .i32 0, .i32 0, .i32 0]
    [.i32 buffer] (boxStringCode.drop 1) []) rfl ?_
  refine arrive_bind (h.call (h.does_bufferSize buffer) rfl h.bufferSize rfl (by omega))
    fun length y _ => ?_
  refine .steps 2 (q := p.here s ws y 1 (depthAbove ws) [.i32 buffer, .i32 length, .i32 0, .i32 0]
    [.i32 length] (boxStringCode.drop 4) []) rfl ?_
  refine arrive_bind (h.callOwn rfl (h.does_stringNew length) rfl (by omega)) fun v y _ => ?_
  refine .steps 2 (q := p.here s ws y 1 (depthAbove ws)
    [.i32 buffer, .i32 length, .i32 v, .i32 0] [] [copyInLoop]
    [⟨0, boxStringCode.drop 7, boxStringCode.drop 7, []⟩]) rfl ?_
  refine arrive_bind (h.copyInLoop_leads (by omega) length.toNat 0 y (Nat.zero_add _)) fun _ y _ => ?_
  exact ⟨2, rfl⟩

theorem Stands.tries_toHostString (v : UInt32) (x : Space) :
    p.Tries env (Work.Starved v x) s x (p.base + 12) [.i32 v] (Work.toHostString v) (fun b => [.i32 b]) 1 := by
  intro ws shallow
  refine .before (h.enter rfl (by omega)) ?_
  refine .before (.steps 2 (q := p.here s ws x 1 (depthAbove ws) [.i32 v, .i32 0, .i32 0, .i32 0]
    [.i32 4, .i32 v] (toHostStringCode.drop 2) []) rfl .refl) ?_
  refine arrive_unless (h.callOwn rfl (h.does_expect v 4) rfl shallow) fun _ y _ => ?_
  refine .before (.steps 1 (q := p.here s ws y 1 (depthAbove ws) [.i32 v, .i32 0, .i32 0, .i32 0]
    [.i32 v] (toHostStringCode.drop 4) []) rfl .refl) ?_
  refine arrive_unless h.load fun length y _ => ?_
  refine .before (.steps 2 (q := p.here s ws y 1 (depthAbove ws)
    [.i32 v, .i32 (UInt32.ofNat length), .i32 0, .i32 0] [.i32 (UInt32.ofNat length)]
    (toHostStringCode.drop 7) []) rfl .refl) ?_
  refine arrive_after (h.tryCall (h.tries_bufferNew _ y) rfl h.bufferNew rfl shallow) fun buffer y _ => ?_
  refine .steps 2 (q := p.here s ws y 1 (depthAbove ws)
    [.i32 v, .i32 (UInt32.ofNat length), .i32 buffer, .i32 0] [] [copyOutLoop]
    [⟨0, toHostStringCode.drop 10, toHostStringCode.drop 10, []⟩]) rfl ?_
  refine arrive_bind (h.copyOutLoop_leads shallow _ 0 y (Nat.zero_add _)) fun _ y _ => ?_
  exact ⟨2, rfl⟩

end

/-! ## Arrays -/

section

variable (h : p.Rooted s)

include h

theorem Rooted.does_slot (array index : UInt32) :
    p.Does env s (p.base + 13) [.i32 array, .i32 index] (Work.slot array index)
      (fun a => [.i32 a]) 0 := by
  intro x ws shallow
  refine (h.enter rfl shallow).trans ?_
  refine .steps 2 (q := p.here s ws x 1 (depthAbove ws) [.i32 array, .i32 index]
    [.ofBool (array == 0)] (slotCode.drop 2) []) rfl ?_
  refine arrive_bind (require (b := array != 0) (by simp [bne])) fun _ y _ => ?_
  refine .steps 2 (q := p.here s ws y 1 (depthAbove ws) [.i32 array, .i32 index]
    [.i32 array, .i32 index] (slotCode.drop 5) []) rfl ?_
  refine arrive_bind h.load fun w y _ => ?_
  refine .steps 1 (q := p.here s ws y 1 (depthAbove ws) [.i32 array, .i32 index]
    [.ofBool (UInt32.ofNat w ≤ index)] (slotCode.drop 7) []) rfl ?_
  refine arrive_bind (require (b := index < UInt32.ofNat w) ?_) fun _ y _ => ?_
  · simp [← UInt32.not_lt]
  · exact ⟨8, rfl⟩

theorem Rooted.does_arrayCreate (length : UInt32) :
    p.Does env s (p.base + 14) [.i32 length] (Work.arrayCreate length) (fun v => [.i32 v]) 1 := by
  intro x ws shallow
  refine (h.enter rfl (Nat.le_of_succ_le shallow)).trans ?_
  refine .steps 5 (q := p.here s ws x 1 (depthAbove ws) [.i32 length, .i32 0]
    [.i32 (4 + length <<< (2 : UInt32))] (arrayCreateCode.drop 5) []) rfl ?_
  refine arrive_bind (h.callOwn rfl (h.does_alloc _) rfl shallow) fun v y _ => ?_
  refine .steps 3 (q := p.here s ws y 1 (depthAbove ws) [.i32 length, .i32 v]
    [.i32 length, .i32 v] (arrayCreateCode.drop 9) []) rfl ?_
  refine arrive_bind (h.store rfl) fun _ y _ => ?_
  exact ⟨2, rfl⟩

theorem Rooted.does_arraySet (array index v : UInt32) :
    p.Does env s (p.base + 15) [.i32 array, .i32 index, .i32 v] (Work.arraySet array index v)
      (fun _ => []) 1 := by
  intro x ws shallow
  refine (h.enter rfl (Nat.le_of_succ_le shallow)).trans ?_
  refine .steps 2 (q := p.here s ws x 0 (depthAbove ws) [.i32 array, .i32 index, .i32 v]
    [.i32 index, .i32 array] (arraySetCode.drop 2) []) rfl ?_
  refine arrive_bind (h.callOwn rfl (h.does_slot array index) rfl shallow) fun a y _ => ?_
  refine .steps 1 (q := p.here s ws y 0 (depthAbove ws) [.i32 array, .i32 index, .i32 v]
    [.i32 v, .i32 a] (arraySetCode.drop 4) []) rfl ?_
  exact arrive_last (h.store rfl) fun _ _ => ⟨1, rfl⟩

theorem Rooted.does_arrayGet (array index : UInt32) :
    p.Does env s (p.base + 16) [.i32 array, .i32 index] (Work.arrayGet array index)
      (fun v => [.i32 v]) 1 := by
  intro x ws shallow
  refine (h.enter rfl (Nat.le_of_succ_le shallow)).trans ?_
  refine .steps 2 (q := p.here s ws x 1 (depthAbove ws) [.i32 array, .i32 index]
    [.i32 index, .i32 array] (arrayGetCode.drop 2) []) rfl ?_
  refine arrive_bind (h.callOwn rfl (h.does_slot array index) rfl shallow) fun a y _ => ?_
  refine arrive_bind h.load fun w y _ => ?_
  exact ⟨1, rfl⟩

end

end GuestHost.Support.Place
