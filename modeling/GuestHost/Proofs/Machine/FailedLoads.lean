import GuestHost.Proofs.Compiler.Transcripts
import GuestHost.Proofs.Machine.Allocation
import GuestHost.Proofs.Machine.Acts
import Mathlib.Data.List.Iterate

/-! What becomes of a load that fails. It ends the run, and every other load that is
under way fails after it, each with the wording of the one before. -/

namespace GuestHost

/-- What a load fails with when another one fails before it could be completed. -/
def Error.nested (cause : Error) : Error := .instantiate cause.message

theorem Error.length_message_nested (cause : Error) :
    cause.message.length < cause.nested.message.length := by
  have text : cause.nested.message = "instantiation failed: " ++ cause.message := rfl
  have prefixed : "instantiation failed: ".length = 22 := rfl
  rw [text, String.length_append, prefixed]
  omega

/-- A cause that was reworded is another one. -/
theorem Error.nested_iterate_eq (cause : Error) (n : Nat) : nested^[n] cause = cause ↔ n = 0 := by
  constructor
  · intro h
    by_contra hn
    have longer : ∀ k, cause.message.length + k ≤ (nested^[k] cause).message.length := by
      intro k
      induction k with
      | zero => simp
      | succ k ih =>
          rw [Function.iterate_succ_apply']
          have := length_message_nested (nested^[k] cause)
          omega
    have := longer n
    rw [h] at this
    omega
  · rintro rfl
    rfl

/-- The event belongs to a load. -/
def Event.isLoad : Event → Bool
  | .loadIssued _ _ | .loadReturned _ | .loadFailed _ => true
  | _ => false

/-- The first load to fail among events that `n` loads under way precede: how many are
under way when it fails, itself included, and why it does. -/
def firstFailure : Nat → List Event → Option (Nat × Error)
  | _, [] => none
  | n, e :: es =>
    match e with
    | .loadFailed cause => some (n, cause)
    | .loadIssued _ _ => firstFailure (n + 1) es
    | .loadReturned _ => firstFailure (n - 1) es
    | _ => firstFailure n es

/-- The causes of all loads that failed, in order. -/
def failures (events : List Event) : List Error :=
  events.filterMap fun
    | .loadFailed cause => some cause
    | _ => none

theorem firstFailure_quiet {events : List Event} (quiet : ∀ e ∈ events, e.isLoad = false) (n : Nat)
    (rest : List Event) : firstFailure n (events ++ rest) = firstFailure n rest := by
  induction events with
  | nil => rfl
  | cons e es ih =>
      have first := quiet e (List.mem_cons_self ..)
      have others := ih fun e he => quiet e (List.mem_cons_of_mem _ he)
      cases e with
      | loadIssued | loadReturned | loadFailed => cases first
      | requested | touched | wrote | noted => exact others

theorem failures_quiet {events : List Event} (quiet : ∀ e ∈ events, e.isLoad = false) :
    failures events = [] := by
  refine List.filterMap_eq_nil_iff.mpr fun e he => ?_
  have := quiet e he
  cases e with
  | loadFailed => cases this
  | loadIssued | loadReturned | requested | touched | wrote | noted => rfl

theorem Event.isLoad_of_isCompilation {e : Event} (h : e.isCompilation = true) :
    e.isLoad = false := by
  cases e with
  | requested | touched => rfl
  | wrote | noted | loadIssued | loadReturned | loadFailed => cases h

theorem Event.isLoad_of_isRemark {e : Event} (h : e.isRemark = true) : e.isLoad = false := by
  cases e with
  | wrote | noted => rfl
  | requested | touched | loadIssued | loadReturned | loadFailed => cases h

namespace Machine

/-! ## Acts -/

/-- Between the two moments no load failed, and the numbers of loads under way agree
with the events. -/
def Unfailing (a b : Store × Nat) : Prop :=
  ∃ new : List Event, b.1.host.trace = a.1.host.trace ++ new.toArray ∧ failures new = [] ∧
    ∀ rest, firstFailure a.2 (new ++ rest) = firstFailure b.2 rest

namespace Unfailing

theorem of_quiet {s s' : Store} {n : Nat} (new : List Event)
    (trace : s'.host.trace = s.host.trace ++ new.toArray)
    (quiet : ∀ e ∈ new, e.isLoad = false) : Unfailing (s, n) (s', n) :=
  ⟨new, trace, failures_quiet quiet, firstFailure_quiet quiet n⟩

theorem of_host_eq {s s' : Store} {n : Nat} (h : s'.host = s.host) : Unfailing (s, n) (s', n) :=
  .of_quiet [] (by rw [h]; rfl) fun _ h => by cases h

theorem trans {a b c : Store × Nat} (h : Unfailing a b) (h' : Unfailing b c) : Unfailing a c := by
  obtain ⟨new, trace, none, next⟩ := h
  obtain ⟨new', trace', none', next'⟩ := h'
  refine ⟨new ++ new', by simp [trace', trace], ?_, fun rest => ?_⟩
  · rw [failures, List.filterMap_append]
    exact List.append_eq_nil_iff.mpr ⟨none, none'⟩
  · rw [List.append_assoc, next, next']

end Unfailing

theorem issued_unfailing (env : Environment) (s : Store) (n : Nat) (buffer : Handle) :
    Unfailing (s, n) ({ s with host := issued env s.host buffer }, n + 1) := by
  obtain ⟨asked, whole, compilation⟩ := ordering_asked env s.host buffer
  have quiet : ∀ e ∈ asked, e.isLoad = false := fun e among =>
    Event.isLoad_of_isCompilation (compilation e among)
  have none : failures asked = [] := failures_quiet quiet
  exact ⟨.loadIssued buffer _ :: asked, by rw [issued_eq, whole], none,
    firstFailure_quiet quiet (n + 1)⟩

theorem act_unfailing {env : Environment} {a b : Store × Nat} (h : Act env a b) :
    Unfailing a b := by
  cases h with
  | edit he => exact .of_host_eq he.host_eq
  | allocate ha => exact .of_host_eq (allocate_eq_ok ha).host
  | capability ran =>
      obtain ⟨new, trace, remarks⟩ := Capability.run_trace ran
      exact .of_quiet new trace fun e he => Event.isLoad_of_isRemark (remarks e he)
  | issue s n buffer => exact issued_unfailing env s n buffer
  | answer s n func => exact ⟨[_], Array.push_eq_append, rfl, fun _ => rfl⟩

theorem acts_unfailing {env : Environment} {a b : Store × Nat} (h : Acts env a b) :
    Unfailing a b := by
  induction h with
  | refl => exact .of_host_eq rfl
  | tail _ last ih => exact ih.trans (act_unfailing last)

/-! ## Runs -/

/-- How a run that `n` loads under way precede ends with the loads that failed in it:
if one did, all under way failed with it, and the run with the last of them. -/
def Settled (n : Nat) (r : Except Failure (List Val)) (events : List Event) : Prop :=
  match firstFailure n events with
  | none => failures events = []
  | some (k, cause) =>
    0 < k ∧ r = .error (.host (Error.nested^[k - 1] cause)) ∧
      failures events = List.iterate Error.nested cause k

/-- What happened before the end without a failure changes nothing about it. -/
theorem Settled.after {a b : Store × Nat} {r : Except Failure (List Val)} {events : List Event}
    {new : List Event} (none : failures new = [])
    (next : ∀ rest, firstFailure a.2 (new ++ rest) = firstFailure b.2 rest)
    (h : Settled b.2 r events) : Settled a.2 r (new ++ events) := by
  have same : failures (new ++ events) = failures events := by
    rw [failures, List.filterMap_append, ← failures, none]
    rfl
  rwa [Settled, next, same]

theorem carried_iterate_host (cause : Error) (n : Nat) :
    Failure.carried^[n] (.host cause) = .host (Error.nested^[n] cause) := by
  induction n generalizing cause with
  | zero => rfl
  | succ n ih => exact ih cause.nested

theorem failures_lost (cause : Error) (n : Nat) :
    failures (lost (.host cause) n) = List.iterate Error.nested cause.nested n := by
  induction n generalizing cause with
  | zero => rfl
  | succ n ih => exact congrArg (cause.nested :: ·) (ih cause.nested)

/-- A load that fails takes along those under way. -/
theorem settled_loadFailed (cause : Error) (n : Nat) :
    Settled (n + 1) (.error (Failure.carried^[n] (.host cause)))
      (.loadFailed cause :: lost (.host cause) n) := by
  refine ⟨Nat.succ_pos n, by rw [carried_iterate_host]; rfl, ?_⟩
  exact congrArg (cause :: ·) (failures_lost cause n)

/-- Any other failure makes the innermost load under way fail, if there is one. -/
theorem settled_failed (e : Failure) (n : Nat) :
    Settled n (.error (Failure.carried^[n] e)) (lost e n) := by
  cases n with
  | zero => exact rfl
  | succ n => exact settled_loadFailed (.instantiate e.text) n

/-- If nothing failed before a load does, the run that it ends is settled. -/
theorem failLoad_settled {a : Store × Nat} {s : Store} {ws : List Waiting} (cause : Error)
    (unfailing : Unfailing a (s, loading ws + 1)) :
    ∃ r s', failLoad s ws cause = .finished r s' ∧
      ∃ events : List Event, s'.host.trace = a.1.host.trace ++ events.toArray ∧ Settled a.2 r events := by
  obtain ⟨new, trace, none, next⟩ := unfailing
  dsimp only at trace
  exact ⟨_, _, failLoad_eq s ws cause, new ++ .loadFailed cause :: lost (.host cause) (loading ws),
    by simp [Store.appending, Store.mapHost, trace], (settled_loadFailed cause _).after none next⟩

/-- A run ends with the events of its loads settled. -/
theorem run_settled {env : Environment} {n : Nat} {m : State} {r : Except Failure (List Val)}
    {s : Store} (ended : run env n m = some (r, s)) :
    ∃ events : List Event, s.host.trace = m.store.host.trace ++ events.toArray ∧
      Settled (loading m.waiting) r events := by
  induction n generalizing m with
  | zero => cases ended
  | succ n ih =>
      have passage := step_passage env m
      rw [run] at ended
      generalize step env m = p at passage ended
      cases passage with
      | next acts =>
          obtain ⟨new, trace, none, next⟩ := acts_unfailing acts
          dsimp only at trace
          obtain ⟨events, rest, settled⟩ := ih ended
          exact ⟨new ++ events, by simp [rest, trace], settled.after none next⟩
      | done results alone =>
          cases ended
          exact ⟨[], by simp, rfl⟩
      | @failed s₁ ws e acts =>
          obtain ⟨new, trace, none, next⟩ := acts_unfailing acts
          dsimp only at trace
          rw [fail_eq] at ended
          cases ended
          exact ⟨new ++ lost e (loading ws), by simp [Store.appending, Store.mapHost, trace],
            (settled_failed e _).after none next⟩
      | loadFailed cause _ acts =>
          obtain ⟨_, _, failed, settled⟩ := failLoad_settled cause (acts_unfailing acts)
          rw [failed] at ended
          cases ended
          exact settled
      | @entryless s₁ ws acts =>
          have counted : Unfailing (s₁, loading ws + 1) (s₁.mapHost Host.addInstance, loading ws + 1) :=
            .of_quiet [] (by simp [Store.mapHost, Host.addInstance]) (by simp)
          obtain ⟨_, _, failed, settled⟩ :=
            failLoad_settled (.missingExport entryName) ((acts_unfailing acts).trans counted)
          rw [failed] at ended
          cases ended
          exact settled

end Machine

end GuestHost
