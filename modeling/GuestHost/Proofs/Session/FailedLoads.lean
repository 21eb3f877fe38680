import GuestHost.Compiler.Builtin
import GuestHost.Proofs.Machine.FailedLoads
import GuestHost.Proofs.Session.Guest
import GuestHost.Session.Group

/-! What a call answers when a load fails in it. The failure is never lost, but its cause
is reported as it was only if no other load was under way. -/

namespace GuestHost

open Machine

/-- The events between two hosts, of which the later one's trace continues the other's. -/
theorem since_eq {h h' : Host} {events : List Event}
    (trace : h'.trace = h.trace ++ events.toArray) : (Group.since h h').toList = events := by
  rw [Group.since, trace]
  simp

namespace Session

/-- The entry's run begins with no load under way and ends with all of its loads settled. -/
theorem entry_settled {env : Environment} {fuel : Nat} {s s' : Store} {func : Nat} {args : List Val}
    {r : Except Failure (List Val)} (ended : invoke env fuel s func args = some (r, s')) :
    Settled 0 r (Group.since s.host s'.host).toList := by
  obtain ⟨events, trace, settled⟩ := run_settled ended
  rwa [since_eq trace]

/-- If a load fails while an entry runs, then all loads under way fail, and the call is
answered by the failure of the outermost one. That is the cause of the first failure
exactly if no other load was under way. -/
theorem call_failedLoad {fuel : Nat} {s : Session} {e : Entry} {args : List Value}
    {packed : UInt32} {s₁ s₂ : Store} {r : Except Failure (List Val)} {n : Nat} {cause : Error}
    (own : e.session = s.id) (typed : s.store.hasType e.func Boundary.entryType = true)
    (packs : (Boundary.pack ⟨s.env, fuel, e.support⟩ args).run s.store = some (.ok packed, s₁))
    (runs : invoke s.env fuel s₁ e.func [.i32 packed] = some (r, s₂))
    (fails : firstFailure 0 (Group.since s₁.host s₂.host).toList = some (n, cause)) :
    s.call fuel e args =
        some (.error (.host (Error.nested^[n - 1] cause)), { s with store := s₂ }) ∧
      failures (Group.since s₁.host s₂.host).toList = List.iterate Error.nested cause n ∧
      (Error.nested^[n - 1] cause = cause ↔ n = 1) := by
  have settled := entry_settled runs
  rw [Settled, fails] at settled
  obtain ⟨pos, rfl, all⟩ := settled
  refine ⟨?_, all, ?_⟩
  · have answer : ((⟨s.env, fuel, e.support⟩ : Boundary).call e.func args).run s.store =
        some (.error (.host (Error.nested^[n - 1] cause)), s₂) :=
      Boundary.call_run typed packs runs
    rw [call_own own, answer]
    rfl
  · rw [Error.nested_iterate_eq]
    omega

/-- A module with a function that loads a one-byte source, and has it run at the start
or exports it as its entry. -/
def loader (source : UInt8) (atStart : Bool) : Wasm.Module where
  types := [⟨[.i32], [.i32]⟩, ⟨[.i32, .i32, .i32], []⟩, ⟨[.i32], [.funcref]⟩, ⟨[], []⟩]
  imports := [⟨"buffer", "new", .func 0⟩, ⟨"buffer", "set", .func 1⟩, ⟨"load", "load", .func 2⟩]
  funcs := [0, 3]
  exports := if atStart then [] else [⟨"start", .func, 3⟩]
  start := if atStart then some 4 else none
  bodies :=
    [⟨[(1, .i32)], [.plain (.i32Const 1), .call 0, .plain (.localSet 1),
      .plain (.localGet 1), .plain (.i32Const 0), .plain (.i32Const source.toUInt32), .call 1,
      .plain (.localGet 1), .call 2, .plain .drop, .plain (.i32Const 0), .close]⟩,
     ⟨[], [.plain (.i32Const 0), .call 3, .plain .drop, .close]⟩]

/-- A compiler that makes of 0 a script that loads 1, of 1 a module whose start loads 2,
and rejects everything else. -/
def reluctant : Compiler where
  answer
    | .support optimize => Builtin.compiler.answer (.support optimize)
    | .script source _ =>
      .ok (if source = #[0] then { payload := (Wasm.Binary.module (loader 1 false)).toArray }
        else if source = #[1] then { payload := (Wasm.Binary.module (loader 2 true)).toArray }
        else { error := some "boom" })

/-- A session, and the entry of a script in it. -/
def reluctantEntry : Option (Session × Entry) :=
  match openWith 100 0 reluctant {} with
  | some (.ok s, _) =>
    match s.load 100 #[0] with
    | some (.ok (e, _), s) => some (s, e)
    | _ => none
  | _ => none

/-- An entry, if there is one, whose call without arguments runs with events that pass a test. -/
def runsWith (found : Option (Session × Entry)) (test : List Event → Bool) : Bool :=
  match found with
  | none => false
  | some (s, e) =>
    e.session == s.id && s.store.hasType e.func Boundary.entryType &&
      match invoke s.env 100 s.store e.func [.i32 0] with
      | some (_, s₂) => test (Group.since s.host s₂.host).toList
      | none => false

theorem runsWith_spec {found : Option (Session × Entry)} {test : List Event → Bool}
    (h : runsWith found test = true) : ∃ s e r s₂, found = some (s, e) ∧ e.session = s.id ∧
      s.store.hasType e.func Boundary.entryType = true ∧
      invoke s.env 100 s.store e.func [.i32 0] = some (r, s₂) ∧
      test (Group.since s.host s₂.host).toList = true := by
  unfold runsWith at h
  split at h
  · cases h
  · next s e =>
      rw [Bool.and_eq_true, Bool.and_eq_true, beq_iff_eq] at h
      obtain ⟨⟨own, typed⟩, h⟩ := h
      split at h
      · next r s₂ runs => exact ⟨s, e, r, s₂, rfl, own, typed, runs, h⟩
      · cases h

set_option maxRecDepth 100000 in
/-- The call reports the wording of the cause alone: `boom` was the compiler's complaint. -/
theorem reluctant_reworded : ∃ s e s₂, reluctantEntry = some (s, e) ∧
    s.call 100 e [] = some (.error (.host (.instantiate "boom")), { s with store := s₂ }) ∧
    failures (Group.since s.host s₂.host).toList = [.compile "boom", .instantiate "boom"] ∧
    (Error.nested^[2 - 1] (.compile "boom") = .compile "boom" ↔ 2 = 1) := by
  have checked : runsWith reluctantEntry
      (fun events => firstFailure 0 events == some (2, .compile "boom")) = true := by
    decide +kernel
  obtain ⟨s, e, r, s₂, he, own, typed, runs, fails⟩ := runsWith_spec checked
  exact ⟨s, e, s₂, he, call_failedLoad own typed rfl runs (beq_iff_eq.mp fails)⟩

end Session

end GuestHost
