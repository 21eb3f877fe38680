import GuestHost.Machine.Frame
import GuestHost.Machine.Instantiation

/-! The machine that runs guest code: one step at a time, with everything that waits
for the present step in a list. A guest that loads a module waits like a guest that
calls a function, so loads nest without bound. -/

namespace GuestHost.Machine

open Wasm

/-- What stays the same while guest code runs: the compiler, its options, and the
definitions that loaded modules are linked against, once they are complete. -/
structure Environment where
  compiler : Compiler
  options : Options
  links : Option Links

/-- The name of a script's entry. -/
def entryName : String := "start"

/-- What goes on when the present function returns. -/
inductive Waiting
  | caller (f : Frame)
  /-- The instance is complete once its start function has returned, and its entry is
  what the guest asked for. -/
  | loading (inst : Nat)

/-- What the machine does next. -/
inductive Control
  | run (f : Frame)
  | enter (func : Nat) (args : List Val)
  | leave (results : List Val)

structure State where
  store : Store
  control : Control
  waiting : List Waiting := []

/-- What comes of a step. -/
inductive Progress
  | next (m : State)
  | finished (result : Except Failure (List Val)) (s : Store)

/-- Passes a failure on to all who wait. Code cannot catch it; a load fails with it as
an instantiation that did not succeed. -/
def unwind (e : Failure) (h : Host) : List Waiting → Failure × Host
  | [] => (e, h)
  | .caller _ :: ws => unwind e h ws
  | .loading _ :: ws =>
    let cause := Error.instantiate e.text
    unwind (.host cause) (h.record (.loadFailed cause)) ws

/-- Ends the run by a failure. -/
def fail (s : Store) (ws : List Waiting) (e : Failure) : Progress :=
  let (e, host) := unwind e s.host ws
  .finished (.error e) { s with host }

/-- Ends the run because a load failed. -/
def failLoad (s : Store) (ws : List Waiting) (cause : Error) : Progress :=
  fail (s.record (.loadFailed cause)) ws (.host cause)

/-- Consumes a buffer, compiles its bytes and brings the result to life up to its
start function. -/
def beginLoad (env : Environment) (s : Store) (buffer : Handle) : Except Error Ready × Store :=
  let (source, host) := s.host.take buffer
  let s := { s with host := host.record (.loadIssued buffer source.toOption) }
  match source, env.links with
  | .error e, _ => (.error e, s)
  | .ok _, none => (.error (.internal "nested load before the session finished linking"), s)
  | .ok source, some links =>
    let (decoded, host) := s.host.compile env.compiler (.script source env.options) none
    let s := { s with host }
    match decoded with
    | .error e => (.error e, s)
    | .ok d => s.instantiate links d.payload

/-- Answers the guest that asked for an instance with the instance's entry. -/
def endLoad (s : Store) (inst : Nat) (ws : List Waiting) : Progress :=
  let s := s.mapHost Host.addInstance
  match s.exportedFunc? inst entryName with
  | some a =>
    .next ⟨s.mapHost fun h => h.addNestedLoad a, .leave [.ref (some a)], ws⟩
  | none => failLoad s ws (.missingExport entryName)

/-- How many calls may be under way within one run. The bound stands for a native stack of
fixed size, on which a frame takes the same room whatever its function. -/
def maxDepth : Nat := 10000

/-- The number of calls under way below a function that is about to run. -/
def depthAbove : List Waiting → Nat
  | .caller f :: _ => f.depth + 1
  | _ => 0

/-- Enters a function with its arguments in order. -/
def enter (env : Environment) (s : Store) (func : Nat) (args : List Val) (ws : List Waiting) :
    Progress :=
  match s.funcs[func]? with
  | none => fail s ws (.trap .illTyped)
  | some (.guest t inst locals code) =>
    let depth := depthAbove ws
    if maxDepth < depth then fail s ws (.trap .callStackExhausted)
    else
      .next ⟨s, .run
        { inst, depth, code, arity := t.results.length, locals := args ++ locals.map Val.zero }, ws⟩
  | some (.host c) =>
    match c.action with
    | .run f =>
      match c.run f args s.host with
      -- A function that never returns keeps the machine where it is.
      | none => .next ⟨s, .enter func args, ws⟩
      | some (.ok vals, host) => .next ⟨{ s with host }, .leave vals, ws⟩
      | some (.error e, host) => fail { s with host } ws e
    | .load =>
      match args with
      | [.i32 buffer] =>
        match beginLoad env s buffer.toInt32 with
        | (.error e, s) => failLoad s ws e
        | (.ok ⟨inst, none⟩, s) => endLoad s inst ws
        | (.ok ⟨inst, some start⟩, s) => .next ⟨s, .enter start [], .loading inst :: ws⟩
      | _ => fail s ws (.trap .illTyped)

/-- Hands results to whoever waits for them. -/
def leave (s : Store) (results : List Val) : List Waiting → Progress
  | [] => .finished (.ok results) s
  | .caller f :: ws => .next ⟨s, .run { f with stack := results.reverse ++ f.stack }, ws⟩
  | .loading inst :: ws => endLoad s inst ws

/-- Calls the function at an address with arguments from the stack. -/
def call (s : Store) (f : Frame) (ws : List Waiting) (func : Nat) : Progress :=
  match s.funcs[func]? with
  | none => fail s ws (.trap .illTyped)
  | some callee =>
    let n := callee.type.params.length
    .next ⟨s, .enter func (f.stack.take n).reverse,
      .caller { f with stack := f.stack.drop n } :: ws⟩

/-- The function that an indirect call reaches. -/
def indirect (s : Store) (f : Frame) (type table : Nat) : Except Trap (Nat × Frame) :=
  match f.stack, (s.tableAddr? f.inst table).bind (s.tables[·]?),
      s.instances[f.inst]?.bind (·.types[type]?) with
  | .i32 i :: stack, some t, some type =>
    match t.entries[i.toNat]? with
    | none => .error .tableBounds
    | some none => .error .uninitializedElement
    | some (some a) =>
      if s.hasType a type then .ok (a, { f with stack }) else .error .signatureMismatch
  | _, _, _ => .error .illTyped

/-- The types that block types refer to. -/
def blockTypes (s : Store) (f : Frame) : List FuncType :=
  match s.instances[f.inst]? with
  | some i => i.types
  | none => []

/-- Goes on where a branch leads. -/
def goto (s : Store) (ws : List Waiting) : Frame.Target → Progress
  | .inside f => .next ⟨s, .run f, ws⟩
  | .out results => .next ⟨s, .leave results, ws⟩

/-- Enters a block. -/
def block (s : Store) (f : Frame) (ws : List Waiting) (t : BlockType) (body : List Instr)
    (again : Option Instr) : Progress :=
  match f.enter (blockTypes s f) t body again with
  | .ok f => .next ⟨s, .run f, ws⟩
  | .error e => fail s ws (.trap e)

/-- Runs one instruction of a frame whose code has moved past it. -/
def instruction (s : Store) (f : Frame) (ws : List Waiting) (i : Instr) : Progress :=
  match i with
  | .plain p =>
    match f.plain s p with
    | .ok (f, s) => .next ⟨s, .run f, ws⟩
    | .error t => fail s ws (.trap t)
  | .block t body => block s f ws t body none
  | .loop t body => block s f ws t body (some (.loop t body))
  | .when t body =>
    match f.stack with
    | .i32 c :: stack => block s { f with stack } ws t (if c = 0 then [] else body) none
    | _ => fail s ws (.trap .illTyped)
  | .choose t yes no =>
    match f.stack with
    | .i32 c :: stack => block s { f with stack } ws t (if c = 0 then no else yes) none
    | _ => fail s ws (.trap .illTyped)
  | .branch d => goto s ws (f.branch d)
  | .branchIf d =>
    match f.stack with
    | .i32 c :: stack =>
      let f := { f with stack }
      if c = 0 then .next ⟨s, .run f, ws⟩ else goto s ws (f.branch d)
    | _ => fail s ws (.trap .illTyped)
  | .branchTable ds d =>
    match f.stack with
    | .i32 i :: stack => goto s ws ({ f with stack }.branch (ds.getD i.toNat d))
    | _ => fail s ws (.trap .illTyped)
  | .ret => .next ⟨s, .leave f.results, ws⟩
  | .call i =>
    match s.funcAddr? f.inst i with
    | some a => call s f ws a
    | none => fail s ws (.trap .illTyped)
  | .callIndirect type table =>
    match indirect s f type table with
    | .ok (a, f) => call s f ws a
    | .error t => fail s ws (.trap t)

/-- One step of the machine. -/
def step (env : Environment) : State → Progress
  | ⟨s, .run f, ws⟩ =>
    match f.code with
    | [] => goto s ws f.finish
    | i :: rest => instruction s { f with code := rest } ws i
  | ⟨s, .enter func args, ws⟩ => enter env s func args ws
  | ⟨s, .leave results, ws⟩ => leave s results ws

/-- Runs the machine to its end, if it comes within a number of steps. -/
def run (env : Environment) : Nat → State → Option (Except Failure (List Val) × Store)
  | 0, _ => none
  | n + 1, m =>
    match step env m with
    | .next m => run env n m
    | .finished r s => some (r, s)

/-- Calls a function from outside. -/
def invoke (env : Environment) (fuel : Nat) (s : Store) (func : Nat) (args : List Val) :
    Option (Except Failure (List Val) × Store) :=
  run env fuel ⟨s, .enter func args, []⟩

/-- A run that ended is not changed by more steps. -/
theorem run_mono {env : Environment} {n k : Nat} {m : State}
    {r : Except Failure (List Val) × Store} (h : run env n m = some r) :
    run env (n + k) m = some r := by
  induction n generalizing m with
  | zero => simp [run] at h
  | succ n ih =>
    rw [Nat.add_right_comm, run]
    rw [run] at h
    split <;> simp_all

/-- Whatever bound a run ends within, it ends alike. -/
theorem run_unique {env : Environment} {n k : Nat} {m : State}
    {r r' : Except Failure (List Val) × Store} (h : run env n m = some r)
    (h' : run env k m = some r') : r = r' := by
  have a := run_mono (k := k) h
  have b := run_mono (k := n) h'
  rw [Nat.add_comm] at b
  exact Option.some.inj (a.symm.trans b)

end GuestHost.Machine
