import GuestHost.Proofs.Machine.Acts
import GuestHost.Proofs.Machine.FailedLoads
import Mathlib.Data.List.Basic

/-! The record of a run tells which modules guests asked for, and what became of them once
they were complete, as the states of the run do, and in the same order. -/

namespace GuestHost

/-- The entry that a guest is handed. -/
def Event.handed? : Event → Option Nat
  | .loadReturned func => some func
  | _ => none

/-- A guest's load fails for lack of an entry. -/
def Event.isEntryless : Event → Bool
  | .loadFailed cause => cause == .missingExport Machine.entryName
  | _ => false

/-- A module that a guest asked for is complete: the guest is handed its entry, or there is
none. -/
def Event.isOutcome (e : Event) : Bool := e.handed?.isSome || e.isEntryless

@[simp] theorem Event.isOutcome_loadIssued (buffer : Handle) (source : Option (Array UInt8)) :
    (Event.loadIssued buffer source).isOutcome = false := rfl

/-- A guest asks for a module, or one is complete. -/
def Event.isDealing (e : Event) : Bool := e.asked?.isSome || e.isOutcome

/-- What guests asked for, and what became of it. -/
def dealings (events : List Event) : List Event := events.filter Event.isDealing

@[simp] theorem dealings_append (xs ys : List Event) : dealings (xs ++ ys) = dealings xs ++ dealings ys :=
  List.filter_append ..

theorem dealings_quiet {events : List Event} (quiet : ∀ e ∈ events, e.isDealing = false) :
    dealings events = [] :=
  List.filter_eq_nil_iff.mpr fun e among => by rw [quiet e among]; exact Bool.false_ne_true

theorem Event.isDealing_of_isLoad {e : Event} (h : e.isLoad = false) : e.isDealing = false := by
  cases e with
  | loadIssued | loadReturned | loadFailed => cases h
  | requested | touched | wrote | noted => rfl

namespace Machine

/-- The buffer that a guest asks for a module from, with the bytes in it at that moment if it
is live. -/
def State.asked? (m : State) : Option (Handle × Option (Array UInt8)) :=
  m.order?.map fun k => (k, m.store.host.buffers.live[k]?.map ByteArray.data)

/-- What becomes of a load whose instance a step completes. -/
def State.outcome? (env : Environment) (m : State) : Option Event :=
  (m.completed? env).map fun (s, inst, _) =>
    match s.exportedFunc? inst entryName with
    | some a => .loadReturned a
    | none => .loadFailed (.missingExport entryName)

/-- What a step deals in: the module that it asks for, and what becomes of one. -/
def State.deals (env : Environment) (m : State) : List Event :=
  (m.asked?.map fun (k, source) => .loadIssued k source).toList ++ (m.outcome? env).toList

/-- The states that a run goes through within a number of steps, the first included. -/
def passed (env : Environment) : Nat → State → List State
  | 0, _ => []
  | n + 1, m => m ::
    match step env m with
    | .next m => passed env n m
    | .finished _ _ => []

variable {env : Environment} {m : State}

theorem dealings_lost (e : Failure) (n : Nat) : dealings (lost e n) = [] := by
  induction n generalizing e with
  | zero => rfl
  | succ n ih => exact ih e.carried

theorem dealings_ordering (env : Environment) (h : Host) (buffer : Handle) :
    dealings (ordering env h buffer) = [.loadIssued buffer (h.buffers.live[buffer]?.map ByteArray.data)] := by
  obtain ⟨asked, whole, compilation⟩ := ordering_asked env h buffer
  rw [whole]
  exact congrArg (_ :: ·) (dealings_quiet fun e among =>
    Event.isDealing_of_isLoad (Event.isLoad_of_isCompilation (compilation e among)))

/-! ## Steps -/

namespace State

theorem Idle.deals (idle : m.Idle env) : m.deals env = [] := by
  rw [State.deals, asked?, idle.order, outcome?, idle.completed]
  rfl

theorem begun_deals {buffer : Handle} {r : Except Error Ready} {s : Store}
    (ordered : m.order? = some buffer) (begun : beginLoad env m.store buffer = (r, s))
    (incomplete : ∀ inst, r ≠ .ok ⟨inst, none⟩) :
    m.deals env = [.loadIssued buffer (m.store.host.buffers.live[buffer]?.map ByteArray.data)] := by
  have none : m.completed? env = none := by
    simp only [completed?, ordered, begun]
    split
    · next same => exact absurd (congrArg Prod.fst same) (incomplete _)
    · rfl
  rw [State.deals, asked?, ordered, outcome?, none]
  rfl

theorem outcome?_of_completed {s : Store} {inst : Nat} {ws : List Waiting}
    (completed : m.completed? env = some (s, inst, ws)) :
    m.outcome? env = some (match s.exportedFunc? inst entryName with
      | some a => .loadReturned a
      | none => .loadFailed (.missingExport entryName)) := by
  rw [outcome?, completed]
  rfl

/-- What a completed instance adds to the record before it is known what becomes of it. -/
theorem completed?_deals {s : Store} {inst : Nat} {ws : List Waiting}
    (completed : m.completed? env = some (s, inst, ws)) :
    ∃ new : List Event, s.host.trace = m.store.host.trace ++ new.toArray ∧
      m.deals env = dealings new ++ (m.outcome? env).toList := by
  rw [State.deals, asked?]
  rcases completed?_eq_some completed with ⟨buffer, ordered, begun, _⟩ | ⟨results, left, waits, rfl⟩
  · refine ⟨ordering env m.store.host buffer, by rw [beginLoad_host begun, issued_eq], ?_⟩
    rw [ordered, dealings_ordering]
    rfl
  · have none : m.order? = none := by rw [order?, left]
    exact ⟨[], by simp, by rw [none]; rfl⟩

end State

theorem Serves.idle {r : Except Failure (List Val)} {host : Host} (serves : Serves m r host) :
    m.Idle env := by
  obtain ⟨func, args, c, f, entered, found, action, _⟩ := serves
  obtain ⟨s, control, ws⟩ := m
  cases entered
  refine State.enter_idle fun _ c' _ found' loads => ?_
  cases found.symm.trans found'
  cases action.symm.trans loads

/-- What a function of the host leaves in the record are remarks of its own. -/
theorem Serves.trace {r : Except Failure (List Val)} {host : Host} (serves : Serves m r host) :
    ∃ new : List Event, host.trace = m.store.host.trace ++ new.toArray ∧ ∀ e ∈ new, e.isRemark = true := by
  obtain ⟨_, _, _, _, _, _, _, ran⟩ := serves
  exact Capability.run_trace ran

theorem Serves.silent {r : Except Failure (List Val)} {host : Host} (serves : Serves m r host) :
    ∃ new : List Event, host.trace = m.store.host.trace ++ new.toArray ∧ dealings new = [] := by
  obtain ⟨new, trace, remarks⟩ := serves.trace
  exact ⟨new, trace, dealings_quiet fun e among =>
    Event.isDealing_of_isLoad (Event.isLoad_of_isRemark (remarks e among))⟩

theorem failed_dealings {s : Store} {new : List Event} (ws : List Waiting) (e : Failure)
    (trace : s.host.trace = m.store.host.trace ++ new.toArray) :
    ∃ all : List Event, (fail s ws e).store.host.trace = m.store.host.trace ++ all.toArray ∧
      dealings all = dealings new := by
  refine ⟨new ++ lost e (loading ws), ?_, by rw [dealings_append, dealings_lost, List.append_nil]⟩
  rw [fail_eq]
  simp [Progress.store, Store.appending, Store.mapHost, trace]

theorem failLoad_dealings {s : Store} {new : List Event} (ws : List Waiting) (cause : Error)
    (trace : s.host.trace = m.store.host.trace ++ new.toArray) :
    ∃ all : List Event, (failLoad s ws cause).store.host.trace = m.store.host.trace ++ all.toArray ∧
      dealings all = dealings new ++ dealings [.loadFailed cause] := by
  have recorded : (s.record (.loadFailed cause)).host.trace =
      m.store.host.trace ++ (new ++ [Event.loadFailed cause]).toArray := by
    simp [Store.record, Store.mapHost, Host.record, trace]
  obtain ⟨all, whole, same⟩ := failed_dealings ws (.host cause) recorded
  exact ⟨all, whole, same.trans (dealings_append _ _)⟩

/-- The record grows by what the step deals in, and by nothing else of the kind. -/
theorem Turn.dealings {p : Progress} (turn : Turn env m p) :
    ∃ new : List Event, p.store.host.trace = m.store.host.trace ++ new.toArray ∧
      GuestHost.dealings new = m.deals env := by
  have begun {buffer : Handle} {r : Except Error Ready} {s : Store}
      (begun : beginLoad env m.store buffer = (r, s)) :
      s.host.trace = m.store.host.trace ++ (ordering env m.store.host buffer).toArray := by
    rw [beginLoad_host begun, issued_eq]
  cases turn with
  | moves idle edited _ =>
      refine ⟨[], ?_, idle.deals.symm⟩
      rcases edited with rfl | edit
      · simp [Progress.store]
      · simp [Progress.store, edit.host_eq]
  | ends left alone =>
      have order : m.order? = none := by rw [State.order?, left]
      have idle : m.Idle env := ⟨order, by simp [State.completed?, order, left, alone]⟩
      exact ⟨[], by simp [Progress.store], idle.deals.symm⟩
  | traps t idle =>
      rw [idle.deals]
      have same : m.store.host.trace = m.store.host.trace ++ [].toArray := by simp
      exact failed_dealings m.waiting _ same
  | answers serves =>
      rw [serves.idle.deals]
      exact serves.silent
  | refuses serves =>
      obtain ⟨new, trace, silent⟩ := serves.silent
      rw [serves.idle.deals, ← silent]
      exact failed_dealings m.waiting _ trace
  | @rejects _ e _ ordered rejected =>
      have silent : GuestHost.dealings [.loadFailed e] = [] := by
        refine dealings_quiet (List.forall_mem_singleton.mpr (beq_eq_false_iff_ne.mpr ?_))
        rintro rfl
        cases beginLoad_stopsLoad rejected
      obtain ⟨all, trace, same⟩ := failLoad_dealings m.waiting e (begun rejected)
      refine ⟨all, trace, ?_⟩
      rw [same, silent, List.append_nil, dealings_ordering, State.begun_deals ordered rejected (by simp)]
  | starts ordered started =>
      rw [State.begun_deals ordered started (by simp), ← dealings_ordering]
      exact ⟨_, begun started, rfl⟩
  | @returns _ _ a _ completed entry =>
      obtain ⟨new, trace, deals⟩ := State.completed?_deals completed
      refine ⟨new ++ [.loadReturned a], ?_, ?_⟩
      · simp [Progress.store, Store.mapHost, Host.addInstance, Host.addNestedLoad, Host.record, trace]
      · rw [dealings_append, deals, State.outcome?_of_completed completed, entry]
        rfl
  | @entryless s _ ws completed lacks =>
      obtain ⟨new, trace, deals⟩ := State.completed?_deals completed
      have counted : (s.mapHost Host.addInstance).host.trace = m.store.host.trace ++ new.toArray := trace
      obtain ⟨all, trace, same⟩ := failLoad_dealings ws (.missingExport entryName) counted
      refine ⟨all, trace, ?_⟩
      rw [same, deals, State.outcome?_of_completed completed, lacks]
      rfl

/-- The record of a run holds, in order, what the states that it went through dealt in. -/
theorem run_dealings {n : Nat} {r : Except Failure (List Val)} {s : Store}
    (ended : run env n m = some (r, s)) :
    ∃ new : List Event, s.host.trace = m.store.host.trace ++ new.toArray ∧
      dealings new = (passed env n m).flatMap (State.deals env) := by
  induction n generalizing m with
  | zero => cases ended
  | succ n ih =>
      obtain ⟨first, trace, deals⟩ := (step_turn env m).dealings
      rw [run] at ended
      split at ended
      · next m' next =>
          have states : passed env (n + 1) m = m :: passed env n m' := by simp only [passed, next]
          rw [next] at trace
          obtain ⟨later, rest, deals'⟩ := ih ended
          refine ⟨first ++ later, by rw [rest]; simp [Progress.store] at trace; simp [trace], ?_⟩
          rw [dealings_append, deals, deals', states, List.flatMap_cons]
      · next finished =>
          have states : passed env (n + 1) m = [m] := by simp only [passed, finished]
          rw [finished] at trace
          cases ended
          exact ⟨first, trace, by rw [deals, states, List.flatMap_cons, List.flatMap_nil, List.append_nil]⟩

theorem filterMap_dealings {α : Type} {f : Event → Option α} (only : ∀ e, e.isDealing = false → f e = none)
    (events : List Event) : (dealings events).filterMap f = events.filterMap f := by
  rw [dealings, List.filterMap_filter]
  congr 1
  funext e
  cases dealing : e.isDealing with
  | true => rw [if_pos rfl]
  | false => rw [if_neg Bool.false_ne_true, only e dealing]

/-- Of what is dealt in, the record and the states tell the same. -/
theorem run_filterMap {α : Type} {f : Event → Option α} {g : State → Option α}
    (only : ∀ e, e.isDealing = false → f e = none) (tells : ∀ m, (m.deals env).filterMap f = (g m).toList)
    {n : Nat} {r : Except Failure (List Val)} {s : Store} (ended : run env n m = some (r, s)) :
    ∃ new : List Event, s.host.trace = m.store.host.trace ++ new.toArray ∧
      new.filterMap f = (passed env n m).filterMap g := by
  obtain ⟨new, trace, deals⟩ := run_dealings ended
  refine ⟨new, trace, ?_⟩
  rw [← filterMap_dealings only, deals, List.filterMap_flatMap, List.filterMap_eq_flatMap_toList]
  congr 1
  funext m
  exact tells m

theorem State.outcome?_isOutcome {e : Event} (outcome : m.outcome? env = some e) :
    e.isOutcome = true ∧ e.asked? = none := by
  obtain ⟨⟨s, inst, ws⟩, _, rfl⟩ := Option.map_eq_some_iff.mp outcome
  dsimp only
  split
  · exact ⟨rfl, rfl⟩
  · exact ⟨beq_self_eq_true _, rfl⟩

theorem State.outcome?_handed (m : State) : (m.outcome? env).bind Event.handed? = m.answer? env := by
  rw [outcome?, answer?]
  cases m.completed? env with
  | none => rfl
  | some p =>
      obtain ⟨s, inst, ws⟩ := p
      cases entry : s.exportedFunc? inst entryName with
      | none => simp [entry, Event.handed?]
      | some a => simp [entry, Event.handed?]

section

variable {n : Nat} {r : Except Failure (List Val)} {s : Store}

/-- The record of a run holds the modules that guests asked for in its states, in order. -/
theorem run_asked (ended : run env n m = some (r, s)) :
    ∃ new : List Event, s.host.trace = m.store.host.trace ++ new.toArray ∧
      new.filterMap Event.asked? = (passed env n m).filterMap State.asked? := by
  refine run_filterMap (fun e other => ?_) (fun m => ?_) ended
  · simpa using (Bool.or_eq_false_iff.mp other).1
  · have other : (m.outcome? env).toList.filterMap Event.asked? = [] := by
      cases outcome : m.outcome? env with
      | none => rfl
      | some e => simp [(State.outcome?_isOutcome outcome).2]
    rw [State.deals, List.filterMap_append, other, List.append_nil]
    cases m.asked? with
    | none => rfl
    | some p => simp

/-- It holds what became of the modules that its states completed, in order. -/
theorem run_outcomes (ended : run env n m = some (r, s)) :
    ∃ new : List Event, s.host.trace = m.store.host.trace ++ new.toArray ∧
      new.filter Event.isOutcome = (passed env n m).filterMap (State.outcome? env) := by
  simp only [← List.filterMap_eq_filter]
  refine run_filterMap (fun e other => ?_) (fun m => ?_) ended
  · simpa [Option.guard] using (Bool.or_eq_false_iff.mp other).2
  · have other : (m.asked?.map fun (k, source) => Event.loadIssued k source).toList.filterMap
        (Option.guard Event.isOutcome) = [] := by
      cases m.asked? with
      | none => rfl
      | some p => simp [Option.guard]
    rw [State.deals, List.filterMap_append, other, List.nil_append]
    cases outcome : m.outcome? env with
    | none => rfl
    | some e => simp [Option.guard, (State.outcome?_isOutcome outcome).1]

end

end Machine

end GuestHost
