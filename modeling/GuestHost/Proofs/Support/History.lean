import GuestHost.Compiler.Builtin
import GuestHost.Proofs.Support.Linked
import GuestHost.Proofs.Support.Refinement

/-! Everything that calls from outside can make of an instance of the support module
since it came to life: its memory holds every block that was ever handed out, and every
further call answers by what the blocks hold. -/

namespace GuestHost.Support

open Machine
open Relation (ReflTransGen)
open Wasm (Module)

/-- The instance was brought to life, and not called yet. -/
def Fresh (inst : Nat) (s : Store) : Prop :=
  ∃ (s₀ : Store) (links : Links) (payload : Array UInt8),
    Module.ofBytes? payload.toList = some module ∧ Linked links s₀ ∧
      s₀.instantiate links payload = (.ok ⟨inst, none⟩, s)

/-- One call of an export, or whatever the host does with its buffers between calls. The
heap follows the call. -/
inductive Turn (env : Environment) (inst : Nat) : Store × Heap → Store × Heap → Prop
  | between (s : Store) (h : Heap) (buffers : Buffers) :
      Turn env inst (s, h) ({ s with host := { s.host with buffers } }, h)
  | call {s s' : Store} {h : Heap} {c : Call} {func fuel : Nat} {r : Except Failure (List Val)}
      (admits : h.Admits s.host.buffers c) (exported : s.exportedFunc? inst c.name = some func)
      (ended : invoke env fuel s func c.args = some (r, s')) :
      Turn env inst (s, h) (s', h.after s.host.buffers c r)

/-- The call ends with a result and a store, for every bound on its steps that is large
enough. -/
def Serves (env : Environment) (inst : Nat) (s : Store) (c : Call)
    (r : Except Failure (List Val)) (s' : Store) : Prop :=
  ∃ func, s.exportedFunc? inst c.name = some func ∧
    ∃ n, ∀ fuel ≥ n, invoke env fuel s func c.args = some (r, s')

/-- The call is to copy a string to the host, but every handle is live, and it never ends. -/
structure Starving (env : Environment) (inst : Nat) (s : Store) (c : Call) : Prop where
  copies : ∃ v, c = .toHostString v
  full : s.host.buffers.Full
  never : ∃ func, s.exportedFunc? inst c.name = some func ∧
    ∀ fuel, invoke env fuel s func c.args = none

/-- A memory holds the blocks of a heap: no reference is nil, all are multiples of eight,
and every block lies inside, apart from the others, with exactly its bytes. -/
structure Laid (memory : Memory) (h : Heap) : Prop where
  some_ref : ∀ p ∈ h, p.address ≠ 0
  aligned : ∀ p ∈ h, p.start % 8 = 0
  inside : ∀ p ∈ h, p.stop ≤ memory.size
  bytes : ∀ p ∈ h, memory.read? p.start p.block.size = some p.block.bytes
  apart : h.Pairwise fun p q => p.stop ≤ q.start ∨ q.stop ≤ p.start

variable {env : Environment} {inst : Nat}

theorem Sound.laid {x : Space} {h : Heap} (s : Sound x h) : Laid x.memory h where
  some_ref := fun _ hp => (s.lies hp).some_r
  aligned := s.aligned
  inside := fun _ hp => s.piece_inside hp
  bytes := fun _ hp => s.read? hp
  apart := s.apart.imp .inr

/-- A box is the same after any call. -/
theorem Heap.mem_after {h : Heap} {p : Piece} (hp : p ∈ h) (box : p.block.tag? ≠ none) (t : Buffers)
    (c : Call) (r : Except Failure (List Val)) : p ∈ h.after t c r := by
  cases r with
  | error e => exact hp
  | ok vals =>
      have set (a i v : UInt32) : p ∈ h.set a i v := by
        refine List.mem_map.mpr ⟨p, hp, ?_⟩
        obtain ⟨address, block⟩ := p
        cases block with
        | array elems => exact absurd rfl box
        | _ => rfl
      simp only [Heap.after]
      split
      · exact List.mem_cons_of_mem _ hp
      · exact set _ _ _
      · exact hp

/-- An instance in a store, what it works on, and the blocks that it has handed out. -/
def Refines (inst : Nat) (s : Store) (h : Heap) : Prop :=
  ∃ (p : Place) (x : Space), p.inst = inst ∧ p.Stands s ∧ p.Owns s x ∧ Sound x h

/-- A fresh instance has its place, and nothing has been handed out. -/
theorem Fresh.placed {s : Store} (fresh : Fresh inst s) : ∃ (p : Place) (buffers : Buffers),
    p.inst = inst ∧ p.Stands s ∧ p.Owns s (Space.fresh buffers) := by
  obtain ⟨s₀, links, payload, decoded, linked, made⟩ := fresh
  obtain ⟨p, hp, added, stands, owns⟩ := instantiate_module decoded linked
  rw [added] at made
  cases made
  exact ⟨p, _, rfl, stands, owns⟩

theorem Fresh.refines {s : Store} (fresh : Fresh inst s) : Refines inst s [] := by
  obtain ⟨p, buffers, hp, stands, owns⟩ := fresh.placed
  exact ⟨p, _, hp, stands, owns, Sound.fresh buffers⟩

theorem Place.Stands.serves {p : Place} {s : Store} (stands : p.Stands s) (env : Environment)
    {c : Call} {x : Space} (fed : ¬ c.Starves x) :
    Serves env p.inst (p.put s x) c (c.work x).1 (p.put s (c.work x).2) :=
  ⟨_, (stands.put x).exportedFunc? c, stands.call_runs env fed⟩

theorem Place.Stands.starving {p : Place} {s : Store} (stands : p.Stands s) (env : Environment) {c : Call}
    {x : Space} (owns : p.Owns s x) (starves : c.Starves x) : Starving env p.inst s c := by
  cases c with
  | toHostString v =>
      refine ⟨⟨v, rfl⟩, ?_, _, stands.exportedFunc? (.toHostString v), fun fuel => ?_⟩
      · rw [owns.buffers]
        exact .of_mem starves.full
      · have never := stands.call_starves env starves fuel
        rwa [owns.put_eq] at never
  | _ => exact starves.elim

/-- A call of an export ends, and the memory follows the blocks, unless there is no handle for a string. -/
theorem Refines.call (env : Environment) {s : Store} {h : Heap} (refines : Refines inst s h) {c : Call}
    (admits : h.Admits s.host.buffers c) :
    (∃ r s', Serves env inst s c r s' ∧ c.Meets h s.host.buffers r s'.host.buffers ∧
      Refines inst s' (h.after s.host.buffers c r)) ∨ Starving env inst s c := by
  obtain ⟨p, x, rfl, stands, owns, sound⟩ := refines
  by_cases starves : c.Starves x
  · exact .inr (stands.starving env owns starves)
  · have served := stands.serves env starves
    rw [owns.put_eq] at served
    rw [owns.buffers] at admits ⊢
    exact .inl ⟨_, _, served, sound.meets admits starves, p, _, rfl, stands.put _, stands.owns_put _,
      sound.after admits⟩

theorem Turn.refines {a b : Store × Heap} (turn : Turn env inst a b) (before : Refines inst a.1 a.2) :
    Refines inst b.1 b.2 := by
  cases turn with
  | between s h buffers =>
      obtain ⟨p, x, hp, stands, owns, sound⟩ := before
      exact ⟨p, _, hp, stands.withBuffers buffers, owns.withBuffers buffers, sound.withBuffers buffers⟩
  | call admits exported ended =>
      rcases before.call env admits with ⟨r, s', ⟨func, found, n, runs⟩, -, after⟩ | starving
      · cases exported.symm.trans found
        cases run_unique ended (runs n (Nat.le_refl n))
        exact after
      · obtain ⟨func, found, never⟩ := starving.never
        cases exported.symm.trans found
        cases (never _).symm.trans ended

theorem turns_refine {a b : Store × Heap} (turns : ReflTransGen (Turn env inst) a b)
    (before : Refines inst a.1 a.2) : Refines inst b.1 b.2 := by
  induction turns with
  | refl => exact before
  | tail _ last ih => exact last.refines ih

/-- A box is the same for ever. -/
theorem mem_of_turns {a b : Store × Heap} (turns : ReflTransGen (Turn env inst) a b) {p : Piece}
    (hp : p ∈ a.2) (box : p.block.tag? ≠ none) : p ∈ b.2 := by
  induction turns with
  | refl => exact hp
  | tail _ last ih =>
      cases last with
      | between s h buffers => exact ih
      | call admits exported ended => exact Heap.mem_after ih box _ _ _

/-- Whatever calls were made since an instance came to life, its memory holds every block
that was ever handed out, every call that is admitted ends as the blocks demand, unless there
is no handle for a string that it copies, and no box ever changes. -/
theorem calls_refine {s₀ s : Store} {h : Heap} (fresh : Fresh inst s₀)
    (turns : ReflTransGen (Turn env inst) (s₀, []) (s, h)) :
    (∃ memory, s.memory? inst = some memory ∧ Laid memory h) ∧
      (∀ c, h.Admits s.host.buffers c → (∃ r s', Serves env inst s c r s' ∧
        c.Meets h s.host.buffers r s'.host.buffers) ∨ Starving env inst s c) ∧
      ∀ s' h', ReflTransGen (Turn env inst) (s, h) (s', h') →
        ∀ p ∈ h, p.block.tag? ≠ none → p ∈ h' := by
  have refines : Refines inst s h := turns_refine turns fresh.refines
  refine ⟨?_, fun c admits => ?_, fun s' h' later p hp box => mem_of_turns later hp box⟩
  · obtain ⟨p, x, rfl, stands, owns, sound⟩ := refines
    refine ⟨x.memory, ?_, sound.laid⟩
    rw [← stands.memory? x, owns.put_eq]
  · refine (refines.call env admits).imp_left ?_
    rintro ⟨r, s', served, meets, -⟩
    exact ⟨r, s', served, meets⟩

/-! ## Two blocks -/

/-- A store with the four capabilities alone, and links to them. -/
def bareStore : Store where
  funcs := #[.host Capability.bufferNew, .host Capability.bufferSet, .host Capability.bufferGet,
    .host Capability.bufferSize]

def bareLinks : Links :=
  Registry.empty
    |>.add "buffer" "new" (.func 0)
    |>.add "buffer" "set" (.func 1)
    |>.add "buffer" "get" (.func 2)
    |>.add "buffer" "size" (.func 3)

theorem linked_bare : Linked bareLinks bareStore where
  new := ⟨0, by decide +kernel, rfl⟩
  set := ⟨1, by decide +kernel, rfl⟩
  get := ⟨2, by decide +kernel, rfl⟩
  size := ⟨3, by decide +kernel, rfl⟩

/-- The module's binary form holds the module. -/
theorem ofBytes?_module : Module.ofBytes? (Wasm.Binary.module module) = some module := by
  decide +kernel

theorem fresh_bare : ∃ (p : Place) (s : Store), Fresh 0 s ∧ p.inst = 0 ∧ p.Stands s ∧
    p.Owns s (Space.fresh {}) := by
  have decoded : Module.ofBytes? (Wasm.Binary.module module).toArray.toList = some module := by
    rw [List.toList_toArray]
    exact ofBytes?_module
  obtain ⟨p, hp, made, stands, owns⟩ := instantiate_module decoded linked_bare
  rw [hp] at made
  exact ⟨p, _, ⟨_, _, _, decoded, linked_bare, made⟩, hp, stands, owns⟩

def builtinEnv : Environment := ⟨Builtin.compiler, {}, none⟩

/-- A box of 5, and an array of two elements whose second refers to it. -/
def pair : Heap := [⟨32, .array [0, 16]⟩, ⟨16, .integer 5⟩]

/-- A call that does not set an element takes nothing but room. -/
theorem Heap.admits_of_room {h : Heap} {t : Buffers} {c : Call} (reads : ∀ a i v, c ≠ .arraySet a i v)
    (room : ∀ b, c.block? t = some b → roundUp h.top + b.size ≤ limit) : h.Admits t c :=
  ⟨room, fun a i v same => absurd same (reads a i v), fun a i v same => absurd same (reads a i v)⟩

theorem Place.Stands.turn {p : Place} {s : Store} {x : Space} {c : Call} {h : Heap} (stands : p.Stands s)
    (fed : ¬ c.Starves x) (admits : h.Admits x.buffers c) {r : Except Failure (List Val)}
    (result : (c.work x).1 = r) :
    Turn env p.inst (p.put s x, h) (p.put s (c.work x).2, h.after x.buffers c r) := by
  obtain ⟨func, exported, n, ended⟩ := stands.serves env fed
  rw [result] at ended
  exact .call admits exported (ended n (Nat.le_refl n))

/-- A fresh instance boxes 5, makes an array and sets its second element to the box. The two lie
apart, the array tells what was set and has no third element, and the box still gives back 5. -/
theorem pair_refined : ∃ s₀ s, Fresh 0 s₀ ∧ ReflTransGen (Turn builtinEnv 0) (s₀, []) (s, pair) ∧
    (∃ memory, s.memory? 0 = some memory ∧ Laid memory pair) ∧
    (∃ s', Serves builtinEnv 0 s (.arrayGet 32 0) (.ok [.i32 0]) s') ∧
    (∃ s', Serves builtinEnv 0 s (.arrayGet 32 1) (.ok [.i32 16]) s') ∧
    (∃ s', Serves builtinEnv 0 s (.arrayGet 32 2) trapped s') ∧
    ∃ s', Serves builtinEnv 0 s (.toHostInteger 16) (.ok [.i64 5]) s' := by
  obtain ⟨p, s₀, fresh, hp, stands, owns⟩ := fresh_bare
  let x₀ := Space.fresh {}
  let x₁ := ((Call.boxInteger 5).work x₀).2
  let x₂ := ((Call.arrayCreate 2).work x₁).2
  have boxed : Turn builtinEnv p.inst (p.put s₀ x₀, []) (p.put s₀ x₁, [⟨16, .integer 5⟩]) := by
    refine stands.turn id (Heap.admits_of_room (by simp) ?_) (r := .ok [.i32 16]) (by decide +kernel)
    rintro _ ⟨⟩
    decide
  have made : Turn builtinEnv p.inst (p.put s₀ x₁, [⟨16, .integer 5⟩])
      (p.put s₀ x₂, [⟨32, .array [0, 0]⟩, ⟨16, .integer 5⟩]) := by
    refine stands.turn id (Heap.admits_of_room (by simp) ?_) (r := .ok [.i32 32]) (by decide +kernel)
    rintro _ ⟨⟩
    decide
  have set : Turn builtinEnv p.inst (p.put s₀ x₂, [⟨32, .array [0, 0]⟩, ⟨16, .integer 5⟩])
      (p.put s₀ ((Call.arraySet 32 1 16).work x₂).2, pair) := by
    refine stands.turn (c := .arraySet 32 1 16) id ⟨by simp [Call.block?], ?known, ?unboxed⟩ (r := .ok [])
      (by decide +kernel)
    case known =>
      rintro _ _ _ ⟨⟩
      exact .inr ⟨_, List.mem_cons_self, rfl⟩
    case unboxed =>
      rintro _ _ _ ⟨⟩ q among same
      rcases List.mem_pair.mp among with rfl | rfl
      · rfl
      · cases same
  rw [owns.put_eq, hp] at boxed
  rw [hp] at made set
  obtain ⟨s, turns⟩ : ∃ s, ReflTransGen (Turn builtinEnv 0) (s₀, []) (s, pair) :=
    ⟨_, ((ReflTransGen.single boxed).tail made).tail set⟩
  obtain ⟨laid, answered, -⟩ := calls_refine fresh turns
  have answers {c : Call} {q : Piece} {a : Except Failure (List Val)} (own : c.isOwn = true)
      (reads : ∀ a i v, c ≠ .arraySet a i v) (asks : ∀ t, c.block? t = none) (among : q ∈ pair)
      (subject : c.subject? = some q.address) (answer : c.answer? q.block = some a) :
      ∃ s', Serves builtinEnv 0 s c a s' := by
    have admits : pair.Admits s.host.buffers c :=
      Heap.admits_of_room reads fun b asked => by cases (asks _).symm.trans asked
    rcases answered c admits with ⟨r, s', served, meets⟩ | starving
    · rw [meets.answers q among subject a answer] at served
      exact ⟨s', served⟩
    · obtain ⟨v, rfl⟩ := starving.copies
      cases own
  exact ⟨s₀, s, fresh, turns, laid,
    answers rfl (by simp) (fun _ => rfl) (List.mem_cons_self ..) rfl rfl,
    answers rfl (by simp) (fun _ => rfl) (List.mem_cons_self ..) rfl rfl,
    answers rfl (by simp) (fun _ => rfl) (List.mem_cons_self ..) rfl rfl,
    answers rfl (by simp) (fun _ => rfl) (List.mem_cons_of_mem _ (List.mem_singleton_self _)) rfl rfl⟩

/-- A box does change if it is taken for an array: the tag of an integer counts as a
length of two, and the element at 1 is the payload. -/
theorem box_taken_for_array : ∃ s₀ s₁ s₂ s₃, Fresh 0 s₀ ∧
    Serves builtinEnv 0 s₀ (.boxInteger 5) (.ok [.i32 16]) s₁ ∧
    Serves builtinEnv 0 s₁ (.arraySet 16 1 7) (.ok []) s₂ ∧
    Serves builtinEnv 0 s₂ (.toHostInteger 16) (.ok [.i64 7]) s₃ := by
  obtain ⟨p, s₀, fresh, hp, stands, owns⟩ := fresh_bare
  let x₁ := ((Call.boxInteger 5).work (Space.fresh {})).2
  let x₂ := ((Call.arraySet 16 1 7).work x₁).2
  have first := stands.serves builtinEnv (c := .boxInteger 5) (x := Space.fresh {}) id
  have second := stands.serves builtinEnv (c := .arraySet 16 1 7) (x := x₁) id
  have third := stands.serves builtinEnv (c := .toHostInteger 16) (x := x₂) id
  have boxed : ((Call.boxInteger 5).work (Space.fresh {})).1 = .ok [.i32 16] := by decide +kernel
  have overwritten : ((Call.arraySet 16 1 7).work x₁).1 = .ok [] := by decide +kernel
  have read : ((Call.toHostInteger 16).work x₂).1 = .ok [.i64 7] := by decide +kernel
  rw [owns.put_eq, hp, boxed] at first
  rw [hp, overwritten] at second
  rw [hp, read] at third
  exact ⟨s₀, _, _, _, fresh, first, second, third⟩

end GuestHost.Support
