import GuestHost.Proofs.Capability.Running
import GuestHost.Proofs.Machine.Edits

/-! The ways in which a step of the machine can go, each with what it needs to know later:
guest code moves on, a function of the host answers or refuses, a load begins, is answered,
or fails. -/

namespace GuestHost.Machine

/-- The states that a run goes through. -/
abbrev Reaches (env : Environment) : State → State → Prop :=
  Relation.ReflTransGen fun m m' => step env m = .next m'

/-- The store that a step leaves. -/
def Progress.store : Progress → Store
  | .next m => m.store
  | .finished _ s => s

/-- The buffer that a guest asks for a module from, if the function being entered loads. -/
def State.order? (m : State) : Option Handle :=
  match m.control with
  | .enter func [.i32 buffer] =>
    match m.store.funcs[func]? with
    | some (.host c) =>
      match c.action with
      | .load => some buffer.toInt32
      | .run _ => none
    | _ => none
  | _ => none

theorem State.order?_eq_some {m : State} {k : Handle} :
    m.order? = some k ↔ ∃ func w c, m.control = .enter func [.i32 w] ∧
      m.store.funcs[func]? = some (.host c) ∧ c.action = .load ∧ w.toInt32 = k := by
  constructor
  · intro ordered
    unfold order? at ordered
    split at ordered
    · next func w entered =>
        split at ordered
        · next c found =>
            split at ordered
            · next action => exact ⟨func, w, c, entered, found, action, Option.some.inj ordered⟩
            · cases ordered
        · cases ordered
    · cases ordered
  · rintro ⟨func, w, c, entered, found, action, rfl⟩
    simp only [order?, entered, found, action]

theorem State.order?_eq_none {m : State}
    (other : ∀ func w c, m.control = .enter func [.i32 w] → m.store.funcs[func]? = some (.host c) →
      c.action ≠ .load) : m.order? = none := by
  refine Option.eq_none_iff_forall_ne_some.mpr fun k ordered => ?_
  obtain ⟨func, w, c, entered, found, action, _⟩ := order?_eq_some.mp ordered
  exact other func w c entered found action

/-- Guest code calls and returns; of loads under way it begins and ends none. -/
inductive Calls : List Waiting → List Waiting → Prop
  | stay (ws : List Waiting) : Calls ws ws
  | push (f : Frame) (ws : List Waiting) : Calls ws (.caller f :: ws)
  | pop (f : Frame) (ws : List Waiting) : Calls (.caller f :: ws) ws

/-- The function of the host that is entered in a state comes to this result. -/
def Serves (m : State) (r : Except Failure (List Val)) (h : Host) : Prop :=
  ∃ func args c f, m.control = .enter func args ∧ m.store.funcs[func]? = some (.host c) ∧
    c.action = .run f ∧ c.run f args m.store.host = some (r, h)

/-- The instance that a step completes, with the store that it is complete in and those who
wait for it: a load of a module without a start function, or a start function that returns. -/
def State.completed? (env : Environment) (m : State) : Option (Store × Nat × List Waiting) :=
  match m.order? with
  | some buffer =>
    match beginLoad env m.store buffer with
    | (.ok ⟨inst, none⟩, s) => some (s, inst, m.waiting)
    | _ => none
  | none =>
    match m.control, m.waiting with
    | .leave _, .loading inst :: ws => some (m.store, inst, ws)
    | _, _ => none

theorem State.completed?_eq_some {env : Environment} {m : State} {s : Store} {inst : Nat}
    {ws : List Waiting} (completed : m.completed? env = some (s, inst, ws)) :
    (∃ buffer, m.order? = some buffer ∧ beginLoad env m.store buffer = (.ok ⟨inst, none⟩, s) ∧
      ws = m.waiting) ∨
    ∃ results, m.control = .leave results ∧ m.waiting = .loading inst :: ws ∧ s = m.store := by
  unfold completed? at completed
  split at completed
  · next buffer ordered =>
      split at completed
      · next begun =>
          cases completed
          exact .inl ⟨buffer, ordered, begun, rfl⟩
      · cases completed
  · split at completed
    · next left waits =>
        cases completed
        exact .inr ⟨_, left, waits, rfl⟩
    · cases completed

/-- The function that a guest is handed in answer to its request for a module. -/
def State.answer? (env : Environment) (m : State) : Option Nat :=
  (m.completed? env).bind fun (s, inst, _) => s.exportedFunc? inst entryName

/-- Neither is a module asked for nor an instance completed. -/
structure State.Idle (env : Environment) (m : State) : Prop where
  order : m.order? = none
  completed : m.completed? env = none

/-- What a step comes to. -/
inductive Turn (env : Environment) (m : State) : Progress → Prop
  | moves {s : Store} {control : Control} {ws : List Waiting} (idle : m.Idle env)
      (edited : s = m.store ∨ Edit m.store s) (calls : Calls m.waiting ws) :
      Turn env m (.next ⟨s, control, ws⟩)
  | ends {results : List Val} (left : m.control = .leave results) (alone : m.waiting = []) :
      Turn env m (.finished (.ok results) m.store)
  | traps (t : Trap) (idle : m.Idle env) : Turn env m (fail m.store m.waiting (.trap t))
  | answers {vals : List Val} {host : Host} (serves : Serves m (.ok vals) host) :
      Turn env m (.next ⟨{ m.store with host }, .leave vals, m.waiting⟩)
  | refuses {e : Failure} {host : Host} (serves : Serves m (.error e) host) :
      Turn env m (fail { m.store with host } m.waiting e)
  | rejects {buffer : Handle} {e : Error} {s : Store} (ordered : m.order? = some buffer)
      (begun : beginLoad env m.store buffer = (.error e, s)) : Turn env m (failLoad s m.waiting e)
  | starts {buffer : Handle} {inst start : Nat} {s : Store} (ordered : m.order? = some buffer)
      (begun : beginLoad env m.store buffer = (.ok ⟨inst, some start⟩, s)) :
      Turn env m (.next ⟨s, .enter start [], .loading inst :: m.waiting⟩)
  | returns {s : Store} {inst a : Nat} {ws : List Waiting}
      (completed : m.completed? env = some (s, inst, ws)) (entry : s.exportedFunc? inst entryName = some a) :
      Turn env m (.next ⟨(s.mapHost Host.addInstance).mapHost fun h => h.addNestedLoad a,
        .leave [.ref (some a)], ws⟩)
  | entryless {s : Store} {inst : Nat} {ws : List Waiting}
      (completed : m.completed? env = some (s, inst, ws)) (lacks : s.exportedFunc? inst entryName = none) :
      Turn env m (failLoad (s.mapHost Host.addInstance) ws (.missingExport entryName))

variable {env : Environment} {m : State}

/-! ## Guest code -/

theorem Turn.trap (idle : m.Idle env) {s : Store} {ws : List Waiting} (store : m.store = s)
    (waiting : m.waiting = ws) (t : Trap) : Turn env m (fail s ws (.trap t)) := by
  subst store waiting
  exact .traps t idle

section

variable (idle : m.Idle env) {s : Store} {ws : List Waiting} (store : m.store = s)
  (waiting : m.waiting = ws)

include idle store waiting

theorem goto_turn (t : Frame.Target) : Turn env m (goto s ws t) := by
  subst store waiting
  cases t with
  | inside f => exact .moves idle (.inl rfl) (.stay _)
  | out results => exact .moves idle (.inl rfl) (.stay _)

theorem block_turn (f : Frame) (t : Wasm.BlockType) (body : List Wasm.Instr) (again : Option Wasm.Instr) :
    Turn env m (block s f ws t body again) := by
  subst store waiting
  unfold block
  split
  · exact .moves idle (.inl rfl) (.stay _)
  · exact .traps _ idle

theorem call_turn (f : Frame) (func : Nat) : Turn env m (call s f ws func) := by
  subst store waiting
  unfold call
  split
  · exact .traps _ idle
  · exact .moves idle (.inl rfl) (.push _ _)

theorem instruction_turn (f : Frame) (i : Wasm.Instr) : Turn env m (instruction s f ws i) := by
  have trap (t : Trap) : Turn env m (fail s ws (.trap t)) := .trap idle store waiting t
  have stay (control : Control) : Turn env m (.next ⟨s, control, ws⟩) :=
    .moves idle (.inl store.symm) (waiting ▸ .stay _)
  cases i with
  | plain p =>
      simp only [instruction]
      split
      · next h =>
          refine .moves idle ?_ (waiting ▸ .stay _)
          rw [store]
          exact plain_edit h
      · exact trap _
  | block t body => exact block_turn idle store waiting _ _ _ _
  | loop t body => exact block_turn idle store waiting _ _ _ _
  | «when» t body =>
      simp only [instruction]
      split
      · exact block_turn idle store waiting _ _ _ _
      · exact trap _
  | choose t yes no =>
      simp only [instruction]
      split
      · exact block_turn idle store waiting _ _ _ _
      · exact trap _
  | branch d => exact goto_turn idle store waiting _
  | branchIf d =>
      simp only [instruction]
      split
      · split
        · exact stay _
        · exact goto_turn idle store waiting _
      · exact trap _
  | branchTable ds d =>
      simp only [instruction]
      split
      · exact goto_turn idle store waiting _
      · exact trap _
  | ret => exact stay _
  | call i =>
      simp only [instruction]
      split
      · exact call_turn idle store waiting _ _
      · exact trap _
  | callIndirect type table =>
      simp only [instruction]
      split
      · exact call_turn idle store waiting _ _
      · exact trap _

end

/-! ## Loads -/

theorem endLoad_turn {s : Store} {inst : Nat} {ws : List Waiting}
    (completed : m.completed? env = some (s, inst, ws)) : Turn env m (endLoad s inst ws) := by
  unfold endLoad
  dsimp only
  split
  · next entry => exact .returns completed entry
  · next lacks => exact .entryless completed lacks

theorem load_turn {buffer : Handle} (ordered : m.order? = some buffer) :
    Turn env m
      (match beginLoad env m.store buffer with
      | (.error e, s) => failLoad s m.waiting e
      | (.ok ⟨inst, none⟩, s) => endLoad s inst m.waiting
      | (.ok ⟨inst, some start⟩, s) => .next ⟨s, .enter start [], .loading inst :: m.waiting⟩) := by
  split
  · next begun => exact .rejects ordered begun
  · next begun =>
      refine endLoad_turn ?_
      simp only [State.completed?, ordered, begun]
  · next begun => exact .starts ordered begun

/-! ## Steps -/

/-- A state that enters a function which does not load is idle. -/
theorem State.enter_idle {s : Store} {func : Nat} {args : List Val} {ws : List Waiting}
    (other : ∀ w c, args = [.i32 w] → s.funcs[func]? = some (.host c) → c.action ≠ .load) :
    State.Idle env ⟨s, .enter func args, ws⟩ := by
  have order : State.order? ⟨s, .enter func args, ws⟩ = none := by
    refine order?_eq_none fun _ w c entered found => ?_
    cases entered
    exact other w c rfl found
  exact ⟨order, by simp only [completed?, order]⟩

theorem enter_turn (s : Store) (func : Nat) (args : List Val) (ws : List Waiting) :
    Turn env ⟨s, .enter func args, ws⟩ (enter env s func args ws) := by
  unfold enter
  split
  · next lacks => exact .traps _ (State.enter_idle fun _ _ _ found => by cases lacks.symm.trans found)
  · next guest =>
      have idle : State.Idle env ⟨s, .enter func args, ws⟩ :=
        State.enter_idle fun _ _ _ found => by cases guest.symm.trans found
      dsimp only
      split
      · exact .traps _ idle
      · exact .moves idle (.inl rfl) (.stay _)
  · next c found =>
      split
      · next f action =>
          split
          · refine .moves (State.enter_idle fun _ c' _ found' loads => ?_) (.inl rfl) (.stay _)
            cases found.symm.trans found'
            cases action.symm.trans loads
          · next ran => exact .answers ⟨func, args, c, f, rfl, found, action, ran⟩
          · next ran => exact .refuses ⟨func, args, c, f, rfl, found, action, ran⟩
      · next action =>
          split
          · next w => exact load_turn (State.order?_eq_some.mpr ⟨func, w, c, rfl, found, action, rfl⟩)
          · next other => exact .traps _ (State.enter_idle fun w _ args _ => absurd args (other w))

/-- Every step goes in one of these ways. -/
theorem step_turn (env : Environment) (m : State) : Turn env m (step env m) := by
  obtain ⟨s, control, ws⟩ := m
  cases control with
  | run f =>
      simp only [step]
      split
      · exact goto_turn ⟨rfl, rfl⟩ rfl rfl _
      · exact instruction_turn ⟨rfl, rfl⟩ rfl rfl _ _
  | enter func args => exact enter_turn s func args ws
  | leave results =>
      simp only [step]
      cases ws with
      | nil => exact .ends rfl rfl
      | cons w ws =>
          cases w with
          | caller f => exact .moves ⟨rfl, rfl⟩ (.inl rfl) (.pop _ _)
          | loading inst => exact endLoad_turn rfl

/-- The step that a module is asked for in begins its load. -/
theorem step_ordered {buffer : Handle} (ordered : m.order? = some buffer) :
    step env m =
      match beginLoad env m.store buffer with
      | (.error e, s) => failLoad s m.waiting e
      | (.ok ⟨inst, none⟩, s) => endLoad s inst m.waiting
      | (.ok ⟨inst, some start⟩, s) => .next ⟨s, .enter start [], .loading inst :: m.waiting⟩ := by
  obtain ⟨s, control, ws⟩ := m
  obtain ⟨func, w, c, entered, found, action, rfl⟩ := State.order?_eq_some.mp ordered
  cases entered
  have entered : step env ⟨s, .enter func [.i32 w], ws⟩ = enter env s func [.i32 w] ws := rfl
  rw [entered, enter, found]
  cases c
  cases action
  rfl

/-- What completes an instance ends its load. -/
theorem step_completed {s : Store} {inst : Nat} {ws : List Waiting}
    (completed : m.completed? env = some (s, inst, ws)) : step env m = endLoad s inst ws := by
  rcases State.completed?_eq_some completed with ⟨_, ordered, begun, rfl⟩ | ⟨_, left, waits, rfl⟩
  · rw [step_ordered ordered, begun]
  · obtain ⟨s, control, waiting⟩ := m
    cases left
    cases waits
    rfl

/-- The guest that asked for the module goes on with its entry. -/
theorem step_answer {a : Nat} (answered : m.answer? env = some a) :
    ∃ s ws, step env m = .next ⟨s, .leave [.ref (some a)], ws⟩ := by
  obtain ⟨⟨s, inst, ws⟩, completed, entry⟩ := Option.bind_eq_some_iff.mp answered
  refine ⟨(s.mapHost Host.addInstance).mapHost fun h => h.addNestedLoad a, ws, ?_⟩
  have exported : (s.mapHost Host.addInstance).exportedFunc? inst entryName = some a := entry
  rw [step_completed completed, endLoad, exported]

end GuestHost.Machine
