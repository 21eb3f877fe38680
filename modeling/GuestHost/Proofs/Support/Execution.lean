import GuestHost.Proofs.Capability.Running
import GuestHost.Proofs.Support.Work

/-! The machine runs the support module's functions as the definitions of their work say.
Each rule leads from a point of the code to the next, or to the end of the run if the
work fails. -/

namespace GuestHost.Support

open Machine
open Wasm (Load MemArg Instr)

/-! What the operators that only the frame is changed by do, one at a time. -/

theorem quiet_load (f : Frame) (s : Store) (k : Load) (m : MemArg) :
    f.quiet s (.load k m) = f.load s k m := rfl

theorem quiet_globalGet (f : Frame) (s : Store) (i : Nat) :
    f.quiet s (.globalGet i) =
      match (s.globalAddr? f.inst i).bind (s.globals[·]?) with
      | some g => .ok (f.push g.value)
      | none => .error .illTyped := rfl

theorem quiet_memorySize (f : Frame) (s : Store) :
    f.quiet s .memorySize =
      match s.memory? f.inst with
      | some m => .ok (f.push (.i32 (UInt32.ofNat m.pages)))
      | none => .error .illTyped := rfl

namespace Place

/-- What a run comes to when work is done: it goes on with the result, or it fails. -/
def arrive {α : Type} (p : Place) (s : Store) (ws : List Waiting) (r : Except Failure α × Space)
    (next : α → Space → Progress) : Progress :=
  match r with
  | (.ok a, x) => next a x
  | (.error e, x) => fail (p.put s x) ws e

/-- Parts of work lead on to the whole. -/
theorem arrive_bind {env : Environment} {p : Place} {s : Store} {ws : List Waiting} {α β : Type}
    {first : Work α} {rest : α → Work β} {x : Space} {q : Progress} {middle : α → Space → Progress}
    {next : β → Space → Progress} (h : Leads env q (p.arrive s ws (first x) middle))
    (h' : ∀ a y, first x = (.ok a, y) →
      Leads env (middle a y) (p.arrive s ws (rest a y) next)) :
    Leads env q (p.arrive s ws ((first >>= rest) x) next) := by
  refine h.trans ?_
  rw [Work.bind_apply]
  rcases hf : first x with ⟨e | a, y⟩
  · exact .refl
  · exact h' a y hf

/-- Work may be the last of a function. -/
theorem arrive_last {env : Environment} {p : Place} {s : Store} {ws : List Waiting} {α : Type}
    {work : Work α} {x : Space} {q : Progress} {middle next : α → Space → Progress}
    (h : Leads env q (p.arrive s ws (work x) middle))
    (h' : ∀ a y, Leads env (middle a y) (next a y)) :
    Leads env q (p.arrive s ws (work x) next) := by
  refine h.trans ?_
  rcases work x with ⟨e | a, y⟩
  · exact .refl
  · exact h' a y

/-- The whole is stuck where its first part leads to something that is. -/
theorem arrive_unless {env : Environment} {p : Place} {s : Store} {ws : List Waiting} {α β : Type}
    {first : Work α} {rest : α → Work β} {x : Space} {q : Progress} {middle : α → Space → Progress}
    {next : β → Space → Progress} {stuck : α → Space → Prop}
    (h : Leads env q (p.arrive s ws (first x) middle))
    (h' : ∀ a y, first x = (.ok a, y) →
      LeadsUnless env (stuck a y) (middle a y) (p.arrive s ws (rest a y) next)) :
    LeadsUnless env (∃ a y, first x = (.ok a, y) ∧ stuck a y) q (p.arrive s ws ((first >>= rest) x) next) := by
  refine .before h ?_
  rw [Work.bind_apply]
  rcases hf : first x with ⟨e | a, y⟩
  · exact ⟨nofun, fun _ => .refl⟩
  · refine (h' a y hf).congr ⟨?_, fun full => ⟨a, y, rfl, full⟩⟩
    rintro ⟨_, _, ⟨⟩, full⟩
    exact full

/-- What follows a part that may be stuck is not. -/
theorem arrive_after {env : Environment} {p : Place} {s : Store} {ws : List Waiting} {α β : Type}
    {first : Work α} {rest : α → Work β} {x : Space} {q : Progress} {middle : α → Space → Progress}
    {next : β → Space → Progress} {stuck : Prop} (h : LeadsUnless env stuck q (p.arrive s ws (first x) middle))
    (h' : ∀ a y, first x = (.ok a, y) → Leads env (middle a y) (p.arrive s ws (rest a y) next)) :
    LeadsUnless env stuck q (p.arrive s ws ((first >>= rest) x) next) :=
  h.after (arrive_bind .refl h')

/-- A point in the code of one of the module's functions. -/
abbrev here (p : Place) (s : Store) (ws : List Waiting) (x : Space) (arity depth : Nat)
    (locals stack : List Val) (code : List Instr) (labels : List Label) : Progress :=
  .next ⟨p.put s x, .run ⟨p.inst, arity, depth, locals, stack, code, labels⟩, ws⟩

/-- The function at the address does this work on these arguments, wherever it is
called from, if that many more calls may be under way. -/
def Does {α : Type} (p : Place) (env : Environment) (s : Store) (func : Nat) (args : List Val)
    (work : Work α) (results : α → List Val) (need : Nat) : Prop :=
  ∀ x ws, depthAbove ws + need ≤ maxDepth →
    Leads env (.next ⟨p.put s x, .enter func args, ws⟩)
      (p.arrive s ws (work x) fun a y => .next ⟨p.put s y, .leave (results a), ws⟩)

/-- In this space the function does this work, but goes on forever where the host is stuck. -/
def Tries {α : Type} (p : Place) (env : Environment) (stuck : Prop) (s : Store) (x : Space) (func : Nat)
    (args : List Val) (work : Work α) (results : α → List Val) (need : Nat) : Prop :=
  ∀ ws, depthAbove ws + need ≤ maxDepth →
    LeadsUnless env stuck (.next ⟨p.put s x, .enter func args, ws⟩)
      (p.arrive s ws (work x) fun a y => .next ⟨p.put s y, .leave (results a), ws⟩)

theorem Does.tries {α : Type} {p : Place} {env : Environment} {s : Store} {func need : Nat}
    {args : List Val} {work : Work α} {results : α → List Val}
    (does : p.Does env s func args work results need) (x : Space) :
    p.Tries env False s x func args work results need :=
  fun ws shallow => .of_leads (does x ws shallow)

/-- The value of a word that an operator reads. -/
def wordValue (k : Load) (w : Nat) : Val :=
  match k with
  | .i32 | .i32From8U => .i32 (UInt32.ofNat w)
  | .i64 => .i64 (UInt64.ofNat w)
  | .f64 => .f64 ⟨UInt64.ofNat w⟩
  | .i32From8S => .i32 (UInt8.ofNat w).toInt8.toInt32.toUInt32

theorem loaded_eq (k : Load) (bs : List UInt8) : loaded k bs = wordValue k (bytesWord bs) := by
  cases k <;> rfl

section

variable {env : Environment} {p : Place} {s : Store} {ws : List Waiting} {x : Space}
  {arity depth : Nat} {locals stack : List Val} {code : List Instr} {labels : List Label}

/-- A check that traps if it fails. -/
theorem require {b c : Bool} (opposite : c = !b) :
    Leads env (p.here s ws x arity depth locals (.ofBool c :: stack)
        (.when .empty [Support.trap] :: code) labels)
      (p.arrive s ws (Work.require b x) fun _ y =>
        p.here s ws y arity depth locals stack code labels) := by
  subst opposite
  cases b with
  | true => exact ⟨2, rfl⟩
  | false => exact ⟨2, rfl⟩

/-- A capability that keeps to the buffers and makes no remarks does the work that agrees
with it in a space. -/
theorem capability_leads {α : Type} {c : Capability} {f : List Val → Host → Response} {func : Nat}
    {args : List Val} {work : Work α} {results : α → List Val} (found : s.funcs[func]? = some (.host c))
    (action : c.action = .run f) (typed : ∀ a, (results a).map Val.type = c.results)
    (agrees : ∀ h, h.buffers = x.buffers → ∃ buffers,
      (work x).2 = { x with buffers } ∧
        f args h = some ((work x).1.map results, { h with buffers })) :
    Leads env (.next ⟨p.put s x, .enter func args, ws⟩)
      (p.arrive s ws (work x) fun a y => .next ⟨p.put s y, .leave (results a), ws⟩) := by
  obtain ⟨buffers, space, agrees⟩ := agrees
    ⟨x.buffers, s.host.instances, s.host.nestedLoads, s.host.writes, #[]⟩ rfl
  have found' : (p.put s x).funcs[func]? = some (.host c) := found
  have ran : c.run f args (p.put s x).host =
      some ((work x).1.map results, { (p.put s x).host with buffers }) := by
    have checked : ((work x).1.map results).bind c.checked = (work x).1.map results := by
      cases (work x).1 with
      | error e => rfl
      | ok a =>
          have full : c.results.length - (results a).length = 0 := by
            rw [← typed a, List.length_map, Nat.sub_self]
          simp [Except.map, Except.bind, Capability.checked, full, typed]
    exact Capability.run_eq_some.mpr ⟨_, _, agrees, checked.symm, by simp [Capability.hostAfter, Place.put]⟩
  refine ⟨1, ?_⟩
  simp only [advance, step, Machine.enter, found', action, ran]
  rcases hw : work x with ⟨e | a, y⟩
  · rw [hw] at space
    subst space
    rfl
  · rw [hw] at space
    subst space
    rfl

theorem does_of_capability {α : Type} {c : Capability} {f : List Val → Host → Response} {func : Nat}
    {args : List Val} {work : Work α} {results : α → List Val} (found : s.funcs[func]? = some (.host c))
    (action : c.action = .run f) (typed : ∀ a, (results a).map Val.type = c.results)
    (agrees : ∀ x h, h.buffers = x.buffers → ∃ buffers,
      (work x).2 = { x with buffers } ∧
        f args h = some ((work x).1.map results, { h with buffers })) :
    p.Does env s func args work results 0 :=
  fun x _ _ => capability_leads found action typed (agrees x)

/-- A function of the host that never returns keeps the machine where it is. -/
theorem step_stuck {c : Capability} {f : List Val → Host → Response} {func : Nat} {args : List Val}
    (found : s.funcs[func]? = some (.host c)) (action : c.action = .run f)
    (stuck : c.run f args s.host = none) :
    step env ⟨s, .enter func args, ws⟩ = .next ⟨s, .enter func args, ws⟩ := by
  simp only [step, Machine.enter, found, action, stuck]

variable (h : p.Rooted s)

include h

theorem Rooted.memory? (x : Space) : (p.put s x).memory? p.inst = some x.memory := by
  rw [Store.memory?, Store.memoryAddr?, (h.put x).found]
  exact (h.owns_put x).memory

/-- Entering one of the module's functions. -/
theorem Rooted.enter {k : Nat} {f : Function} (found : functions[k]? = some f) {args : List Val}
    (shallow : depthAbove ws ≤ maxDepth) :
    Leads env (.next ⟨p.put s x, .enter (p.base + k) args, ws⟩)
      (p.here s ws x (module.types.getD f.type ⟨[], []⟩).results.length (depthAbove ws)
        (args ++ f.body.localTypes.map Val.zero) [] f.code []) := by
  refine ⟨1, ?_⟩
  have own : (p.put s x).funcs[p.base + k]? = some (p.func f) := h.own found
  simp only [advance, step, Machine.enter, own, Place.func]
  rw [if_neg (Nat.not_lt.mpr shallow)]

theorem Rooted.load {k : Load} {m : MemArg} {a : UInt32} :
    Leads env (p.here s ws x arity depth locals (.i32 a :: stack) (.plain (.load k m) :: code) labels)
      (p.arrive s ws (Work.fetch (Nat.pow 2 k.widthLog2) (a.toNat + m.offset) x) fun w y =>
        p.here s ws y arity depth locals (wordValue k w :: stack) code labels) := by
  refine ⟨1, ?_⟩
  have memory := h.memory? x
  simp only [advance, step, instruction, Frame.plain, quiet_load, Frame.load, memory, Memory.load,
    Work.fetch]
  cases x.memory.read? (a.toNat + m.offset) (Nat.pow 2 k.widthLog2) with
  | some bs => simp only [arrive, loaded_eq]
  | none => rfl

theorem Rooted.withMemory (g : Memory → Except Trap Memory) :
    Frame.withMemory (p.put s x) p.inst g =
      match g x.memory with
      | .ok memory => .ok (p.put s { x with memory })
      | .error t => .error t := by
  have addr : (p.put s x).memoryAddr? p.inst = some p.memory := by
    rw [Store.memoryAddr?, (h.put x).found]
    rfl
  have memory : (p.put s x).memories[p.memory]? = some x.memory := (h.owns_put x).memory
  simp only [Frame.withMemory, addr, memory]
  cases g x.memory with
  | error t => rfl
  | ok m => simp [Place.put]

theorem Rooted.store {k : Wasm.Store} {m : MemArg} {a : UInt32} {v : Val} {bs : List UInt8}
    (bytes : stored? k v = some bs) :
    Leads env (p.here s ws x arity depth locals (v :: .i32 a :: stack) (.plain (.store k m) :: code) labels)
      (p.arrive s ws (Work.write (a.toNat + m.offset) bs x) fun _ y =>
        p.here s ws y arity depth locals stack code labels) := by
  refine ⟨1, ?_⟩
  simp only [advance, step, instruction, Frame.plain, Frame.store, h.withMemory, Memory.store, bytes,
    Work.write]
  cases x.memory.write? (a.toNat + m.offset) bs with
  | some memory => rfl
  | none => rfl

theorem Rooted.heapGet :
    Leads env (p.here s ws x arity depth locals stack (.plain (.globalGet Support.heap) :: code) labels)
      (p.arrive s ws (Work.top x) fun w y =>
        p.here s ws y arity depth locals (.i32 w :: stack) code labels) := by
  refine ⟨1, ?_⟩
  have addr : (p.put s x).globalAddr? p.inst Support.heap = some p.heap := by
    rw [Store.globalAddr?, (h.put x).found]
    rfl
  obtain ⟨g, global, value⟩ := Option.map_eq_some_iff.mp (h.owns_put x).top
  simp only [advance, step, instruction, Frame.plain, quiet_globalGet, addr, Option.bind_some, global,
    value]
  rfl

theorem Rooted.heapSet {w : UInt32} :
    Leads env (p.here s ws x arity depth locals (.i32 w :: stack) (.plain (.globalSet Support.heap) :: code) labels)
      (p.arrive s ws (Work.setTop w x) fun _ y =>
        p.here s ws y arity depth locals stack code labels) := by
  refine ⟨1, ?_⟩
  have addr : (p.put s x).globalAddr? p.inst Support.heap = some p.heap := by
    rw [Store.globalAddr?, (h.put x).found]
    rfl
  have same : { p.put s x with globals :=
      (p.put s x).globals.modify p.heap fun g => { g with value := .i32 w } } =
      p.put s { x with top := w } := by
    rw [← put_put x { x with top := w }]
    simp [Place.put]
  obtain ⟨g, global, value⟩ := Option.map_eq_some_iff.mp (h.owns_put x).top
  have typed : (some g).any (fun g => g.value.type == (Val.i32 w).type) = true := by
    rw [Option.any_some, value]
    rfl
  simp only [advance, step, instruction, Frame.plain, Frame.globalSet, addr, global, typed, if_true, same]
  rfl

theorem Rooted.size :
    Leads env (p.here s ws x arity depth locals stack
        (.plain .memorySize :: const 16 :: num .i32Shl :: code) labels)
      (p.arrive s ws (Work.size x) fun w y =>
        p.here s ws y arity depth locals (.i32 w :: stack) code labels) := by
  have first : step env ⟨p.put s x, .run ⟨p.inst, arity, depth, locals, stack,
      .plain .memorySize :: const 16 :: num .i32Shl :: code, labels⟩, ws⟩ =
      p.here s ws x arity depth locals (.i32 (UInt32.ofNat x.memory.pages) :: stack)
        (const 16 :: num .i32Shl :: code) labels := by
    simp only [step, instruction, Frame.plain, quiet_memorySize, h.memory? x]
    rfl
  refine ⟨3, ?_⟩
  rw [advance, first]
  rfl

omit h in
/-- A number of pages that grows is not the word by which growing fails. -/
theorem grow?_pages {m m' : Memory} {n : Nat} (grown : m.grow? (n + 1) = some m') :
    (UInt32.ofNat m.pages == 0xFFFFFFFF) = false := by
  have few : m.pages + (n + 1) ≤ Wasm.maxPages := by
    unfold Memory.grow? at grown
    split at grown
    · next fits => exact Nat.le_trans fits (Nat.min_le_right _ _)
    · cases grown
  rw [beq_eq_false_iff_ne, ne_eq, ← UInt32.toNat_inj, UInt32.toNat_ofNat']
  unfold Wasm.maxPages at few
  change ¬ m.pages % 4294967296 = 4294967295
  omega

theorem Rooted.grow :
    Leads env (p.here s ws x arity depth locals stack
        (const 1 :: .plain .memoryGrow :: const 0xFFFFFFFF :: num .i32Eq ::
          .when .empty [Support.trap] :: code) labels)
      (p.arrive s ws (Work.grow x) fun _ y =>
        p.here s ws y arity depth locals stack code labels) := by
  have addr : (p.put s x).memoryAddr? p.inst = some p.memory := by
    rw [Store.memoryAddr?, (h.put x).found]
    rfl
  have memory : (p.put s x).memories[p.memory]? = some x.memory := (h.owns_put x).memory
  have one : (1 : UInt32).toNat = 1 := rfl
  refine .steps 1 (q := p.here s ws x arity depth locals (.i32 1 :: stack) (.plain .memoryGrow ::
    const 0xFFFFFFFF :: num .i32Eq :: .when .empty [Support.trap] :: code) labels) rfl ?_
  cases hg : x.memory.grow? 1 with
  | none =>
      have failed : step env ⟨p.put s x, .run ⟨p.inst, arity, depth, locals, .i32 1 :: stack,
          .plain .memoryGrow :: const 0xFFFFFFFF :: num .i32Eq :: .when .empty [Support.trap] :: code,
          labels⟩, ws⟩ =
          p.here s ws x arity depth locals (.i32 0xFFFFFFFF :: stack)
            (const 0xFFFFFFFF :: num .i32Eq :: .when .empty [Support.trap] :: code) labels := by
        simp only [step, instruction, Frame.plain, Frame.grow, addr, memory, one, hg]
      refine ⟨5, ?_⟩
      rw [advance, failed]
      simp only [Work.grow, hg]
      rfl
  | some grown =>
      have grew : step env ⟨p.put s x, .run ⟨p.inst, arity, depth, locals, .i32 1 :: stack,
          .plain .memoryGrow :: const 0xFFFFFFFF :: num .i32Eq :: .when .empty [Support.trap] :: code,
          labels⟩, ws⟩ =
          p.here s ws { x with memory := grown } arity depth locals
            (.i32 (UInt32.ofNat x.memory.pages) :: stack)
            (const 0xFFFFFFFF :: num .i32Eq :: .when .empty [Support.trap] :: code) labels := by
        simp only [step, instruction, Frame.plain, Frame.grow, addr, memory, one, hg]
        simp [Place.put]
      refine .steps 1 grew (.steps 2 (q := p.here s ws { x with memory := grown } arity depth locals
        (.ofBool (UInt32.ofNat x.memory.pages == 0xFFFFFFFF) :: stack)
        (.when .empty [Support.trap] :: code) labels) rfl ?_)
      rw [grow?_pages hg]
      simp only [Work.grow, hg]
      exact ⟨2, rfl⟩

theorem Rooted.tryCall {α : Type} {stuck : Prop} {i func : Nat} {callee : Func} {args : List Val}
    {work : Work α} {results : α → List Val} {need : Nat}
    (tries : p.Tries env stuck s x func args work results need)
    (addr : p.image.funcs[i]? = some func) (found : s.funcs[func]? = some callee)
    (params : callee.type.params.length = args.length) (shallow : depth + 1 + need ≤ maxDepth) :
    LeadsUnless env stuck (p.here s ws x arity depth locals (args.reverse ++ stack) (.call i :: code) labels)
      (p.arrive s ws (work x) fun a y =>
        p.here s ws y arity depth locals ((results a).reverse ++ stack) code labels) := by
  have entered : advance env 1 (p.here s ws x arity depth locals (args.reverse ++ stack) (.call i :: code) labels) =
      .next ⟨p.put s x, .enter func args,
        .caller ⟨p.inst, arity, depth, locals, stack, code, labels⟩ :: ws⟩ := by
    have addr' : (p.put s x).funcAddr? p.inst i = some func := by
      rw [Store.funcAddr?, (h.put x).found]
      exact addr
    have found' : (p.put s x).funcs[func]? = some callee := found
    simp only [advance, step, instruction, addr', Machine.call, found', params]
    simp
  refine .before ⟨1, entered⟩ ?_
  refine (tries (.caller ⟨p.inst, arity, depth, locals, stack, code, labels⟩ :: ws) shallow).after ?_
  rcases work x with ⟨e | a, y⟩
  · exact .refl
  · exact ⟨1, rfl⟩

theorem Rooted.call {α : Type} {i func : Nat} {callee : Func} {args : List Val} {work : Work α}
    {results : α → List Val} {need : Nat} (does : p.Does env s func args work results need)
    (addr : p.image.funcs[i]? = some func) (found : s.funcs[func]? = some callee)
    (params : callee.type.params.length = args.length) (shallow : depth + 1 + need ≤ maxDepth) :
    Leads env (p.here s ws x arity depth locals (args.reverse ++ stack) (.call i :: code) labels)
      (p.arrive s ws (work x) fun a y =>
        p.here s ws y arity depth locals ((results a).reverse ++ stack) code labels) :=
  (h.tryCall (does.tries x) addr found params shallow).leads

/-- Calling one of the module's own functions. -/
theorem Rooted.callOwn {α : Type} {k : Nat} {f : Function} {args : List Val} {work : Work α}
    {results : α → List Val} {need : Nat} (found : functions[k]? = some f)
    (does : p.Does env s (p.base + k) args work results need)
    (params : (module.types.getD f.type ⟨[], []⟩).params.length = args.length)
    (shallow : depth + 1 + need ≤ maxDepth) :
    Leads env (p.here s ws x arity depth locals (args.reverse ++ stack) (.call (alloc + k) :: code) labels)
      (p.arrive s ws (work x) fun a y =>
        p.here s ws y arity depth locals ((results a).reverse ++ stack) code labels) := by
  have inside : k < functions.length := (List.getElem?_eq_some_iff.mp found).1
  refine h.call does ?_ (h.own found) params shallow
  simp only [image, List.getElem?_toArray]
  rw [List.getElem?_append_right (by simp)]
  simp [inside]

end

end Place

end GuestHost.Support
