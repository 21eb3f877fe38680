import GuestHost.Proofs.Machine.Acts

/-! Guest code cannot look at the host. What a step does to everything else, and where it
leads, stays the same when the host is replaced by another one that keeps its books alike. -/

namespace GuestHost.Machine

open Wasm (Module FuncType ValType Instr)

/-- A map of hosts that the machine's own bookkeeping does not interfere with. -/
structure Blind (F : Host → Host) : Prop where
  record : ∀ h e, (F h).record e = F (h.record e)
  addInstance : ∀ h, (F h).addInstance = F h.addInstance
  addNestedLoad : ∀ h func, (F h).addNestedLoad func = F (h.addNestedLoad func)

def State.mapHost (m : State) (F : Host → Host) : State := { m with store := m.store.mapHost F }

def Progress.mapHost (F : Host → Host) : Progress → Progress
  | .next m => .next (m.mapHost F)
  | .finished r s => .finished r (s.mapHost F)

variable {F : Host → Host}

namespace Store

variable (s : Store)

@[simp] theorem mapHost_funcs : (s.mapHost F).funcs = s.funcs := rfl

@[simp] theorem mapHost_tables : (s.mapHost F).tables = s.tables := rfl

@[simp] theorem mapHost_memories : (s.mapHost F).memories = s.memories := rfl

@[simp] theorem mapHost_globals : (s.mapHost F).globals = s.globals := rfl

@[simp] theorem mapHost_instances : (s.mapHost F).instances = s.instances := rfl

@[simp] theorem mapHost_host : (s.mapHost F).host = F s.host := rfl

@[simp] theorem mapHost_tableAddr? (inst i : Nat) : (s.mapHost F).tableAddr? inst i = s.tableAddr? inst i := rfl

@[simp] theorem mapHost_memoryAddr? (inst : Nat) : (s.mapHost F).memoryAddr? inst = s.memoryAddr? inst := rfl

@[simp] theorem mapHost_globalAddr? (inst i : Nat) :
    (s.mapHost F).globalAddr? inst i = s.globalAddr? inst i := rfl

@[simp] theorem mapHost_funcAddr? (inst i : Nat) : (s.mapHost F).funcAddr? inst i = s.funcAddr? inst i := rfl

@[simp] theorem mapHost_export? (inst : Nat) (name : String) :
    (s.mapHost F).export? inst name = s.export? inst name := rfl

@[simp] theorem mapHost_exportedFunc? (inst : Nat) (name : String) :
    (s.mapHost F).exportedFunc? inst name = s.exportedFunc? inst name := rfl

@[simp] theorem mapHost_hasType (func : Nat) (t : FuncType) :
    (s.mapHost F).hasType func t = s.hasType func t := rfl

end Store

/-! ## Operators -/

theorem withMemory_mapHost (s : Store) (inst : Nat) (g : Memory → Except Trap Memory) :
    Frame.withMemory (s.mapHost F) inst g = (Frame.withMemory s inst g).map (·.mapHost F) := by
  simp only [Frame.withMemory, Store.mapHost_memoryAddr?, Store.mapHost_memories]
  split
  · rfl
  · split
    · rfl
    · split <;> rfl

theorem store_mapHost (f : Frame) (s : Store) (k : Wasm.Store) (m : Wasm.MemArg) :
    f.store (s.mapHost F) k m = (f.store s k m).map fun (f, s) => (f, s.mapHost F) := by
  simp only [Frame.store, withMemory_mapHost]
  split
  · cases Frame.withMemory s f.inst _ <;> rfl
  · rfl

theorem grow_mapHost (f : Frame) (s : Store) :
    f.grow (s.mapHost F) = (f.grow s).map fun (f, s) => (f, s.mapHost F) := by
  simp only [Frame.grow, Store.mapHost_memoryAddr?, Store.mapHost_memories]
  split
  · split
    · rfl
    · split <;> rfl
  · rfl

theorem memoryInit_mapHost (f : Frame) (s : Store) (segment : Nat) :
    f.memoryInit (s.mapHost F) segment =
      (f.memoryInit s segment).map fun (f, s) => (f, s.mapHost F) := by
  simp only [Frame.memoryInit, Store.mapHost_instances, withMemory_mapHost]
  split
  · split
    · cases Frame.withMemory s f.inst _ <;> rfl
    · rfl
  · rfl

theorem tableSet_mapHost (f : Frame) (s : Store) (table : Nat) :
    f.tableSet (s.mapHost F) table = (f.tableSet s table).map fun (f, s) => (f, s.mapHost F) := by
  simp only [Frame.tableSet, Store.mapHost_tableAddr?, Store.mapHost_tables]
  split
  · split
    · rfl
    · split <;> rfl
  · rfl

theorem globalSet_mapHost (f : Frame) (s : Store) (i : Nat) :
    f.globalSet (s.mapHost F) i = (f.globalSet s i).map fun (f, s) => (f, s.mapHost F) := by
  simp only [Frame.globalSet, Store.mapHost_globalAddr?, Store.mapHost_globals]
  split
  · rw [apply_ite (Except.map _)]
    rfl
  · rfl

theorem quiet_mapHost (f : Frame) (s : Store) (p : Wasm.Plain) :
    f.quiet (s.mapHost F) p = f.quiet s p := by
  cases p <;> rfl

theorem plain_mapHost (f : Frame) (s : Store) (p : Wasm.Plain) :
    f.plain (s.mapHost F) p = (f.plain s p).map fun (f, s) => (f, s.mapHost F) := by
  unfold Frame.plain
  split
  · exact store_mapHost f s _ _
  · exact grow_mapHost f s
  · exact memoryInit_mapHost f s _
  · rfl
  · exact tableSet_mapHost f s _
  · exact globalSet_mapHost f s _
  · rw [quiet_mapHost]
    cases f.quiet s p <;> rfl

/-! ## Steps -/

section

variable (h : Blind F)

include h

theorem unwind_mapHost (e : Failure) (host : Host) (ws : List Waiting) :
    unwind e (F host) ws = ((unwind e host ws).1, F (unwind e host ws).2) := by
  induction ws generalizing e host with
  | nil => rfl
  | cons w ws ih =>
      cases w with
      | caller f => exact ih e host
      | loading inst =>
          rw [unwind, unwind, h.record, ih]

theorem fail_mapHost (s : Store) (ws : List Waiting) (e : Failure) :
    fail (s.mapHost F) ws e = (fail s ws e).mapHost F := by
  simp only [fail, Store.mapHost_host, unwind_mapHost h]
  rfl

theorem failLoad_mapHost (s : Store) (ws : List Waiting) (cause : Error) :
    failLoad (s.mapHost F) ws cause = (failLoad s ws cause).mapHost F := by
  have recorded : (s.mapHost F).record (.loadFailed cause) = (s.record (.loadFailed cause)).mapHost F :=
    congrArg (fun host => ({ s with host } : Store)) (h.record s.host _)
  rw [failLoad, recorded, fail_mapHost h]
  rfl

theorem endLoad_mapHost (s : Store) (inst : Nat) (ws : List Waiting) :
    endLoad (s.mapHost F) inst ws = (endLoad s inst ws).mapHost F := by
  have counted : (s.mapHost F).mapHost Host.addInstance = (s.mapHost Host.addInstance).mapHost F :=
    congrArg (fun host => ({ s with host } : Store)) (h.addInstance s.host)
  rw [endLoad, endLoad, counted]
  generalize s.mapHost Host.addInstance = t
  rw [Store.mapHost_exportedFunc?]
  cases t.exportedFunc? inst entryName with
  | none => exact failLoad_mapHost h t ws _
  | some a =>
      exact congrArg (fun host => Progress.next ⟨{ t with host }, .leave [.ref (some a)], ws⟩)
        (h.addNestedLoad t.host a)

theorem call_mapHost (s : Store) (f : Frame) (ws : List Waiting) (func : Nat) :
    call (s.mapHost F) f ws func = (call s f ws func).mapHost F := by
  simp only [call, Store.mapHost_funcs]
  split
  · exact fail_mapHost h s ws _
  · rfl

theorem block_mapHost (s : Store) (f : Frame) (ws : List Waiting) (t : Wasm.BlockType)
    (body : List Instr) (again : Option Instr) :
    block (s.mapHost F) f ws t body again = (block s f ws t body again).mapHost F := by
  have types : blockTypes (s.mapHost F) f = blockTypes s f := rfl
  simp only [block, types]
  split
  · rfl
  · exact fail_mapHost h s ws _

omit h in
theorem goto_mapHost (s : Store) (ws : List Waiting) (t : Frame.Target) :
    goto (s.mapHost F) ws t = (goto s ws t).mapHost F := by
  cases t <;> rfl

theorem instruction_mapHost (s : Store) (f : Frame) (ws : List Waiting) (i : Instr) :
    instruction (s.mapHost F) f ws i = (instruction s f ws i).mapHost F := by
  cases i with
  | plain p =>
      rw [instruction, instruction, plain_mapHost]
      cases f.plain s p with
      | ok p => rfl
      | error t => exact fail_mapHost h s ws _
  | block t body => exact block_mapHost h s f ws t body _
  | loop t body => exact block_mapHost h s f ws t body _
  | «when» t body =>
      simp only [instruction]
      split
      · exact block_mapHost h s _ ws t _ _
      · exact fail_mapHost h s ws _
  | choose t yes no =>
      simp only [instruction]
      split
      · exact block_mapHost h s _ ws t _ _
      · exact fail_mapHost h s ws _
  | branch d => exact goto_mapHost s ws _
  | branchIf d =>
      simp only [instruction]
      split
      · split
        · rfl
        · exact goto_mapHost s ws _
      · exact fail_mapHost h s ws _
  | branchTable ds d =>
      simp only [instruction]
      split
      · exact goto_mapHost s ws _
      · exact fail_mapHost h s ws _
  | ret => rfl
  | call i =>
      simp only [instruction, Store.mapHost_funcAddr?]
      split
      · exact call_mapHost h s f ws _
      · exact fail_mapHost h s ws _
  | callIndirect type table =>
      have same : indirect (s.mapHost F) f type table = indirect s f type table := rfl
      simp only [instruction, same]
      split
      · exact call_mapHost h s _ ws _
      · exact fail_mapHost h s ws _

theorem leave_mapHost (s : Store) (results : List Val) (ws : List Waiting) :
    leave (s.mapHost F) results ws = (leave s results ws).mapHost F := by
  cases ws with
  | nil => rfl
  | cons w ws =>
      cases w with
      | caller f => rfl
      | loading inst => exact endLoad_mapHost h s inst ws

/-- A step that does not enter a function of the host looks neither at the host nor at its
surroundings. -/
theorem step_blind (env env' : Environment) {m : State}
    (guest : ∀ func args, m.control = .enter func args → ∀ c, m.store.funcs[func]? ≠ some (.host c)) :
    step env' (m.mapHost F) = (step env m).mapHost F := by
  obtain ⟨s, control, ws⟩ := m
  cases control with
  | run f =>
      simp only [step, State.mapHost]
      split
      · exact goto_mapHost s ws _
      · exact instruction_mapHost h s _ ws _
  | enter func args =>
      simp only [step, State.mapHost, enter, Store.mapHost_funcs]
      split
      · exact fail_mapHost h s ws _
      · split
        · exact fail_mapHost h s ws _
        · rfl
      · next c found => exact absurd found (guest func args rfl c)
  | leave results => exact leave_mapHost h s results ws

end

/-! ## Instances -/

theorem constant_mapHost (s : Store) (i : Instance) (ops : List Wasm.Operator) :
    constant (s.mapHost F) i ops = constant s i ops := rfl

theorem constantWord_mapHost (s : Store) (i : Instance) (ops : List Wasm.Operator) :
    constantWord (s.mapHost F) i ops = constantWord s i ops := rfl

theorem resolve_mapHost (s : Store) (links : Links) (m : Module) :
    (s.mapHost F).resolve links m = s.resolve links m := rfl

theorem addGlobals_mapHost (gs : List Wasm.Global) (s : Store) (i : Instance) :
    gs.foldlM (fun si g => addGlobal g si) (s.mapHost F, i) =
      (gs.foldlM (fun si g => addGlobal g si) (s, i)).map fun (s, i) => (s.mapHost F, i) := by
  induction gs generalizing s i with
  | nil => rfl
  | cons g gs ih =>
      rw [List.foldlM_cons, List.foldlM_cons, addGlobal, addGlobal, constant_mapHost]
      cases constant s i g.init with
      | error t => rfl
      | ok v => exact ih { s with globals := s.globals.push ⟨g.type, v⟩ } _

theorem map_bind {ε α β : Type} {x : Except ε α} {f : α → α} {g g' : α → Except ε β} {k : β → β}
    (h : ∀ a, g' (f a) = (g a).map k) : x.map f >>= g' = (x >>= g).map k := by
  cases x with
  | error e => rfl
  | ok a => exact h a

theorem allocate_mapHost (s : Store) (m : Module) (imports : List Extern)
    (bodies : List (FuncType × List ValType × List Instr)) :
    (s.mapHost F).allocate m imports bodies =
      (s.allocate m imports bodies).map fun (s, i) => (s.mapHost F, i) := by
  unfold Store.allocate
  refine (congrArg (· >>= _)
    (addGlobals_mapHost m.globals { s with funcs := _, tables := _, memories := _ } _)).trans ?_
  exact map_bind fun p => rfl

theorem copyElem_mapHost (s : Store) (i : Instance) (e : Wasm.Elem) :
    copyElem (s.mapHost F) i e = (copyElem s i e).map (·.mapHost F) := by
  simp only [copyElem, constantWord_mapHost, Store.mapHost_tables]
  split
  · split
    · rfl
    · rfl
    · split
      · rfl
      · split <;> rfl
  · rfl

theorem copyData_mapHost (s : Store) (i : Instance) (d : Wasm.Data) :
    copyData (s.mapHost F) i d = (copyData s i d).map (·.mapHost F) := by
  simp only [copyData, constantWord_mapHost, Store.mapHost_memories]
  split
  · split
    · rfl
    · rfl
    · split
      · rfl
      · split <;> rfl
  · rfl

theorem copyAll_mapHost {α : Type} (copy : Store → α → Except Trap Store)
    (hc : ∀ s x, copy (s.mapHost F) x = (copy s x).map (·.mapHost F)) (s : Store) (xs : List α) :
    copyAll copy (s.mapHost F) xs = ((copyAll copy s xs).1, (copyAll copy s xs).2.mapHost F) := by
  induction xs generalizing s with
  | nil => rfl
  | cons x xs ih =>
      rw [copyAll, copyAll, hc]
      cases copy s x with
      | ok s => exact ih s
      | error t => rfl

theorem copySegments_mapHost (s : Store) (m : Module) (i : Instance) :
    (s.mapHost F).copySegments m i = ((s.copySegments m i).1, (s.copySegments m i).2.mapHost F) := by
  have elems := copyAll_mapHost (fun s e => copyElem s i e) (F := F) (fun s e => copyElem_mapHost s i e)
    s m.elems
  simp only [Store.copySegments, elems]
  generalize copyAll (fun s e => copyElem s i e) s m.elems = copied
  obtain ⟨_ | t, s⟩ := copied
  · exact copyAll_mapHost (fun s d => copyData s i d) (fun s d => copyData_mapHost s i d) s m.data
  · rfl

theorem instantiate_mapHost (s : Store) (links : Links) (payload : Array UInt8) :
    (s.mapHost F).instantiate links payload =
      ((s.instantiate links payload).1, (s.instantiate links payload).2.mapHost F) := by
  simp only [Store.instantiate, resolve_mapHost, allocate_mapHost]
  split
  · rfl
  · split
    · rfl
    · split
      · rfl
      · next m _ _ bodies _ _ imports _ =>
          cases s.allocate m imports bodies with
          | error t => rfl
          | ok p =>
              simp only [Except.map, copySegments_mapHost]
              generalize p.1.copySegments m p.2 = copied
              obtain ⟨_ | t, s⟩ := copied <;> rfl

/-! ## Runs -/

/-- A map of hosts that is carried over by everything a session can do to a host, once
`env` is replaced by `env'`. -/
structure Carries (env env' : Environment) (F : Host → Host) : Prop extends Blind F where
  links : env'.links = env.links
  options : env'.options = env.options
  take : ∀ h buffer, (F h).take buffer = ((h.take buffer).1, F (h.take buffer).2)
  insert : ∀ h bytes, (F h).insert bytes = (h.insert bytes).map fun (k, h) => (k, F h)
  capability : ∀ (c : Capability) f args h, c.run f args (F h) = (c.run f args h).map fun (r, h) => (r, F h)
  compile : ∀ h r format, (F h).compile env'.compiler r format =
    ((h.compile env.compiler r format).1, F (h.compile env.compiler r format).2)

section

variable {env env' : Environment} (h : Carries env env' F)

include h

theorem beginLoad_mapHost (s : Store) (buffer : Handle) :
    beginLoad env' (s.mapHost F) buffer =
      ((beginLoad env s buffer).1, (beginLoad env s buffer).2.mapHost F) := by
  simp only [beginLoad, Store.mapHost_host, h.take, h.links, h.options, h.record, h.compile]
  cases (s.host.take buffer).1 with
  | error e => rfl
  | ok source =>
      cases env.links with
      | none => rfl
      | some links =>
          dsimp only
          generalize Host.compile _ env.compiler (.script source env.options) none = compiled
          obtain ⟨_ | d, host⟩ := compiled
          · rfl
          · exact instantiate_mapHost { s with host } links d.payload

theorem enter_mapHost (s : Store) (func : Nat) (args : List Val) (ws : List Waiting) :
    enter env' (s.mapHost F) func args ws = (enter env s func args ws).mapHost F := by
  simp only [enter, Store.mapHost_funcs]
  split
  · exact fail_mapHost h.toBlind s ws _
  · split
    · exact fail_mapHost h.toBlind s ws _
    · rfl
  · next c _ =>
      split
      · next f _ =>
          simp only [Store.mapHost_host, h.capability]
          generalize c.run f args s.host = ran
          obtain _ | ⟨_ | vals, host⟩ := ran
          · rfl
          · exact fail_mapHost h.toBlind { s with host } ws _
          · rfl
      · split
        · simp only [beginLoad_mapHost h]
          generalize beginLoad env s _ = begun
          obtain ⟨_ | ⟨inst, _ | start⟩, s⟩ := begun
          · exact failLoad_mapHost h.toBlind s ws _
          · exact endLoad_mapHost h.toBlind s inst ws
          · rfl
        · exact fail_mapHost h.toBlind s ws _

theorem step_mapHost (m : State) : step env' (m.mapHost F) = (step env m).mapHost F := by
  obtain ⟨s, control, ws⟩ := m
  cases control with
  | run f => exact step_blind h.toBlind env env' fun _ _ entered => nomatch entered
  | enter func args => exact enter_mapHost h s func args ws
  | leave results => exact leave_mapHost h.toBlind s results ws

theorem run_mapHost (n : Nat) (m : State) :
    run env' n (m.mapHost F) = (run env n m).map fun (r, s) => (r, s.mapHost F) := by
  induction n generalizing m with
  | zero => rfl
  | succ n ih =>
      rw [run, run, step_mapHost h]
      cases step env m with
      | next m => exact ih m
      | finished r s => rfl

theorem invoke_mapHost (fuel : Nat) (s : Store) (func : Nat) (args : List Val) :
    invoke env' fuel (s.mapHost F) func args =
      (invoke env fuel s func args).map fun (r, s) => (r, s.mapHost F) :=
  run_mapHost h fuel ⟨s, .enter func args, []⟩

end

end GuestHost.Machine
