import GuestHost.Proofs.Compiler.Transcripts
import GuestHost.Proofs.Machine.Allocation
import GuestHost.Proofs.Machine.Causes
import GuestHost.Proofs.Machine.Turns
import Mathlib.Logic.Function.Iterate

/-! What a step of the machine can do, said once. Every step is a sequence of acts on
the store, each of which knows how many loads are under way; a run ends with results, or
by a failure that is passed to all who wait. -/

namespace GuestHost.Machine

open Relation (ReflTransGen)

/-- The number of loads under way among those who wait. -/
def loading : List Waiting → Nat
  | [] => 0
  | .caller _ :: ws => loading ws
  | .loading _ :: ws => loading ws + 1

/-- The host after a guest has asked for a module: the buffer is consumed, and its bytes
are compiled if it was live and the definitions are complete. -/
def issued (env : Environment) (h : Host) (buffer : Handle) : Host :=
  let source := (h.take buffer).1
  let host := (h.take buffer).2.record (.loadIssued buffer source.toOption)
  match source, env.links with
  | .ok source, some _ => (host.compile env.compiler (.script source env.options) none).2
  | _, _ => host

/-- What a guest's request for a module adds to the record: the request, and if the buffer is
live and the definitions are complete, what the compiler is asked. -/
def ordering (env : Environment) (h : Host) (buffer : Handle) : List Event :=
  .loadIssued buffer (h.buffers.live[buffer]?.map ByteArray.data) ::
    match h.buffers.live[buffer]?, env.links with
    | some source, some _ => env.compiler.transcript h.requests (env.options.nested source.data)
    | _, _ => []

/-- What follows the request is of the compiler's concern. -/
theorem ordering_asked (env : Environment) (h : Host) (buffer : Handle) :
    ∃ asked, ordering env h buffer = .loadIssued buffer (h.buffers.live[buffer]?.map ByteArray.data) :: asked ∧
      ∀ e ∈ asked, e.isCompilation = true := by
  refine ⟨_, rfl, fun e among => ?_⟩
  split at among
  · exact env.compiler.isCompilation_of_mem among
  · cases among

/-- To erase what is not live changes nothing. -/
theorem erase_dead {t : Buffers} {k : Handle} (dead : t.live[k]? = none) : t.live.erase k = t.live := by
  refine Std.ExtTreeMap.ext_getElem? fun j => ?_
  rw [Std.ExtTreeMap.getElem?_erase]
  split
  · next same =>
      obtain rfl := Std.LawfulEqCmp.eq_of_compare same
      exact dead.symm
  · rfl

/-- Whatever the request comes to, it consumes the buffer, and of the rest of the host it
changes the record alone. -/
theorem issued_eq (env : Environment) (h : Host) (buffer : Handle) :
    issued env h buffer =
      { h with
        buffers := { h.buffers with live := h.buffers.live.erase buffer }
        trace := h.trace ++ (ordering env h buffer).toArray } := by
  unfold issued ordering Host.take Buffers.take
  cases found : h.buffers.live[buffer]? with
  | none =>
      rw [erase_dead found]
      simp [Host.record, Except.map, Except.toOption]
  | some source =>
      cases env.links with
      | none => simp [Host.record, Except.map, Except.toOption]
      | some links =>
          dsimp only [Except.map]
          rw [Host.compile_host, Host.requests_record rfl]
          simp [Host.record, Except.toOption, Options.nested, Host.requests]

/-- What guest code can do to a store in one go, with the number of loads under way
before and after. -/
inductive Act (env : Environment) : Store × Nat → Store × Nat → Prop
  | edit {s s' : Store} {n : Nat} (h : Edit s s') : Act env (s, n) (s', n)
  | allocate {s s' : Store} {n : Nat} {m : Wasm.Module} {imports : List Extern}
      {bodies : List (Wasm.FuncType × List Wasm.ValType × List Wasm.Instr)} {i : Instance}
      (h : s.allocate m imports bodies = .ok (s', i))
      (resolved : ∃ links, (∀ complete, env.links = some complete → complete = links) ∧
        s.resolve links m = .ok imports) : Act env (s, n) (s', n)
  | capability {s : Store} {n : Nat} {c : Capability} {f : List Val → Host → Response} {args : List Val}
      {r : Except Failure (List Val)} {host : Host} (ran : c.run f args s.host = some (r, host)) :
      Act env (s, n) ({ s with host }, n)
  | issue (s : Store) (n : Nat) (buffer : Handle) :
      Act env (s, n) ({ s with host := issued env s.host buffer }, n + 1)
  | answer (s : Store) (n func : Nat) :
      Act env (s, n + 1) ((s.mapHost Host.addInstance).mapHost fun h => h.addNestedLoad func, n)

abbrev Acts (env : Environment) : Store × Nat → Store × Nat → Prop := ReflTransGen (Act env)

/-- How a step ends: the run goes on, it is over, an operator or a capability has
failed, or a load has, the last way for lack of an entry. -/
inductive Passage (env : Environment) (m : State) : Progress → Prop
  | next {m' : State} (acts : Acts env (m.store, loading m.waiting) (m'.store, loading m'.waiting)) :
      Passage env m (.next m')
  | done (results : List Val) (alone : m.waiting = []) :
      Passage env m (.finished (.ok results) m.store)
  | failed {s : Store} {ws : List Waiting} (e : Failure)
      (acts : Acts env (m.store, loading m.waiting) (s, loading ws)) :
      Passage env m (fail s ws e)
  | loadFailed {s : Store} {ws : List Waiting} (cause : Error) (other : cause ≠ .missingExport entryName)
      (acts : Acts env (m.store, loading m.waiting) (s, loading ws + 1)) :
      Passage env m (failLoad s ws cause)
  | entryless {s : Store} {ws : List Waiting}
      (acts : Acts env (m.store, loading m.waiting) (s, loading ws + 1)) :
      Passage env m (failLoad (s.mapHost Host.addInstance) ws (.missingExport entryName))

theorem Acts.edits {env : Environment} {s s' : Store} (h : Edits s s') (n : Nat) :
    Acts env (s, n) (s', n) :=
  h.lift (fun s => (s, n)) fun _ _ he => .edit he

/-! ## Loads -/

theorem instantiate_acts (env : Environment) (s : Store) {links : Links} (payload : Array UInt8)
    (n : Nat) (agree : ∀ complete, env.links = some complete → complete = links) :
    Acts env (s, n) ((s.instantiate links payload).2, n) := by
  unfold Store.instantiate
  split
  · exact .refl
  · split
    · exact .refl
    · split
      · exact .refl
      · next m _ _ _ _ _ imports resolved =>
          split
          · exact .refl
          · next s' i ha =>
              have first : Act env (s, n) (s', n) := .allocate ha ⟨links, agree, resolved⟩
              have he : Acts env (s', n) ((s'.copySegments m i).2, n) :=
                .edits (copySegments_edits s' m i) n
              split
              · next h => exact .head first (by simpa only [h] using he)
              · next h => exact .head first (by simpa only [h] using he)

/-- Beginning a load consumes a buffer, compiles, and brings to life what was compiled. -/
theorem beginLoad_eq (env : Environment) (s : Store) (buffer : Handle) :
    (∃ e, beginLoad env s buffer = (.error e, { s with host := issued env s.host buffer })) ∨
      ∃ links payload, env.links = some links ∧
        beginLoad env s buffer =
          ({ s with host := issued env s.host buffer } : Store).instantiate links payload := by
  unfold beginLoad issued
  obtain ⟨source, host⟩ := s.host.take buffer
  cases source with
  | error e => exact .inl ⟨e, rfl⟩
  | ok source =>
      cases env.links with
      | none => exact .inl ⟨_, rfl⟩
      | some links =>
          dsimp only
          obtain ⟨decoded, host⟩ := Host.compile _ env.compiler (.script source env.options) none
          cases decoded with
          | error e => exact .inl ⟨e, rfl⟩
          | ok d => exact .inr ⟨links, d.payload, rfl, rfl⟩

theorem beginLoad_acts {env : Environment} {s s' : Store} {buffer : Handle} {r : Except Error Ready}
    (begun : beginLoad env s buffer = (r, s')) (n : Nat) : Acts env (s, n) (s', n + 1) := by
  have same : (beginLoad env s buffer).2 = s' := by rw [begun]
  subst same
  refine .head (.issue s n buffer) ?_
  rcases beginLoad_eq env s buffer with ⟨e, h⟩ | ⟨links, payload, complete, h⟩
  · rw [h]
  · rw [h]
    refine instantiate_acts env _ payload (n + 1) fun links' complete' => ?_
    exact Option.some.inj (complete'.symm.trans complete)

theorem instantiate_host (s : Store) (links : Links) (payload : Array UInt8) :
    (s.instantiate links payload).2.host = s.host := by
  unfold Store.instantiate
  split
  · rfl
  · split
    · rfl
    · split
      · rfl
      · split
        · rfl
        · next m _ _ _ _ _ _ _ _ s' i made =>
            have same : (s'.copySegments m i).2.host = s.host :=
              (Edits.host_eq (copySegments_edits s' m i)).trans (allocate_eq_ok made).host
            split
            · next copied => rwa [copied] at same
            · next copied => rwa [copied] at same

theorem beginLoad_host {env : Environment} {s s' : Store} {buffer : Handle} {r : Except Error Ready}
    (begun : beginLoad env s buffer = (r, s')) : s'.host = issued env s.host buffer := by
  rcases beginLoad_eq env s buffer with ⟨e, h⟩ | ⟨links, payload, _, h⟩
  · cases h.symm.trans begun
    rfl
  · obtain rfl := congrArg Prod.snd (h.symm.trans begun)
    exact instantiate_host _ links payload

/-! ## Steps -/

section

variable {env : Environment} {m : State}

theorem Calls.loading {ws ws' : List Waiting} (calls : Calls ws ws') : loading ws' = loading ws := by
  cases calls with
  | stay => rfl
  | push => rfl
  | pop => rfl

theorem Serves.acts {r : Except Failure (List Val)} {host : Host} (serves : Serves m r host) (n : Nat) :
    Acts env (m.store, n) ({ m.store with host }, n) := by
  obtain ⟨_, args, c, f, _, _, _, ran⟩ := serves
  exact .single (.capability ran)

theorem State.completed?_acts {s : Store} {inst : Nat} {ws : List Waiting}
    (completed : m.completed? env = some (s, inst, ws)) :
    Acts env (m.store, Machine.loading m.waiting) (s, Machine.loading ws + 1) := by
  rcases completed?_eq_some completed with ⟨_, _, begun, rfl⟩ | ⟨_, _, waits, rfl⟩
  · exact beginLoad_acts begun _
  · rw [waits, Machine.loading]

theorem Turn.passage {p : Progress} (turn : Turn env m p) : Passage env m p := by
  cases turn with
  | moves _ edited calls =>
      refine .next ?_
      dsimp only
      rw [calls.loading]
      rcases edited with rfl | edit
      · exact .refl
      · exact .single (.edit edit)
  | ends _ alone => exact .done _ alone
  | traps t _ => exact .failed _ .refl
  | answers serves => exact .next (serves.acts _)
  | refuses serves => exact .failed _ (serves.acts _)
  | rejects _ begun =>
      refine .loadFailed _ ?_ (beginLoad_acts begun _)
      rintro rfl
      cases beginLoad_stopsLoad begun
  | starts _ begun => exact .next (beginLoad_acts begun _)
  | returns completed _ => exact .next ((State.completed?_acts completed).tail (.answer _ _ _))
  | entryless completed _ => exact .entryless (State.completed?_acts completed)

end

/-- Every step passes in one of the five ways. -/
theorem step_passage (env : Environment) (m : State) : Passage env m (step env m) :=
  (step_turn env m).passage

/-! ## Failures -/

/-- What a failure becomes when a load under way fails with it. -/
def Failure.carried (e : Failure) : Failure := .host (.instantiate e.text)

/-- The record of `n` loads that fail one after the other, the first with `e`. -/
def lost (e : Failure) : Nat → List Event
  | 0 => []
  | n + 1 => .loadFailed (.instantiate e.text) :: lost e.carried n

/-- A failure reaches the outermost caller changed once by every load under way, and
each of these loads is recorded as failed, the innermost first. -/
theorem unwind_eq (e : Failure) (h : Host) (ws : List Waiting) :
    unwind e h ws =
      (Failure.carried^[loading ws] e, { h with trace := h.trace ++ (lost e (loading ws)).toArray }) := by
  induction ws generalizing e h with
  | nil => simp [unwind, loading, lost]
  | cons w ws ih =>
      cases w with
      | caller f => simpa only [unwind, loading] using ih e h
      | loading inst =>
          simp only [unwind, loading, lost, ih, Function.iterate_succ, Function.comp_apply]
          simp [Host.record, Failure.carried]

/-- The store with more events in its host's record. -/
def Store.appending (s : Store) (events : List Event) : Store :=
  s.mapHost fun h => { h with trace := h.trace ++ events.toArray }

theorem fail_eq (s : Store) (ws : List Waiting) (e : Failure) :
    fail s ws e =
      .finished (.error (Failure.carried^[loading ws] e)) (s.appending (lost e (loading ws))) := by
  rw [fail, unwind_eq]
  rfl

theorem failLoad_eq (s : Store) (ws : List Waiting) (cause : Error) :
    failLoad s ws cause =
      .finished (.error (Failure.carried^[loading ws] (.host cause)))
        (s.appending (.loadFailed cause :: lost (.host cause) (loading ws))) := by
  rw [failLoad, fail_eq]
  simp [Store.appending, Store.record, Store.mapHost, Host.record]

/-- Failing leaves the buffers alone. -/
theorem fail_buffers (s : Store) (ws : List Waiting) (e : Failure) :
    (fail s ws e).store.host.buffers = s.host.buffers := by
  rw [fail_eq]
  rfl

theorem failLoad_buffers (s : Store) (ws : List Waiting) (cause : Error) :
    (failLoad s ws cause).store.host.buffers = s.host.buffers := by
  rw [failLoad_eq]
  rfl

end GuestHost.Machine
