import GuestHost.Proofs.Machine.Abstinence

/-! How runs end. A run that fails fails in its last step: an operator traps, a function of the
host refuses, or a load fails; and if a load is under way then, that is what the run fails with. -/

namespace GuestHost

/-- What a function of the host, or a load, can fail with. -/
def Error.isCause : Error → Bool
  | .compile _ | .validation _ | .link _ | .instantiate _ | .missingExport _ | .invalidBuffer _
  | .bufferIndex _ _ | .invalidLength _ | .conversion _ | .internal _ => true
  | .runtime _ | .host _ | .trap _ | .unsupportedTag _ | .foreignEntry | .setup _ => false

theorem Error.isCause_of_stopsLoad {e : Error} (early : e.stopsLoad = true) : e.isCause = true := by
  cases e with
  | compile | validation | link | instantiate | invalidBuffer | internal => rfl
  | missingExport | runtime | host | trap | unsupportedTag | bufferIndex | invalidLength | conversion
  | foreignEntry | setup => cases early

namespace Machine

/-- The failure is an operator's, or one with a text and no more. -/
def Failure.isPlain : Failure → Bool
  | .trap _ | .message _ => true
  | .thrown _ | .host _ => false

/-- A failure other than a value that a guest raises. -/
def Failure.Refusal (e : Failure) : Prop :=
  e.isPlain = true ∨ ∃ cause, e = .host cause ∧ cause.isCause = true

end Machine

/-! ## Capabilities -/

namespace Capability

open Machine (Val Failure)

/-- If it fails at all, it refuses. -/
def Mild (r : Response) : Prop := ∀ e h, r = some (.error e, h) → e.Refusal

theorem mild_ok (vals : List Val) (h : Host) : Mild (some (.ok vals, h)) := by
  intro e h' failed
  cases failed

theorem mild_hostError {cause : Error} (kind : cause.isCause = true) (h : Host) :
    Mild (some (hostError cause, h)) := by
  intro e h' failed
  cases failed
  exact .inr ⟨cause, rfl, kind⟩

theorem mild_message (reason : String) (h : Host) : Mild (some (.error (.message reason), h)) := by
  intro e h' failed
  cases failed
  exact .inl rfl

theorem mild_badArguments (h : Host) : Mild (badArguments h) := by
  intro e h' failed
  cases failed
  exact .inl rfl

theorem mild_freshBuffer (h : Host) (bytes : ByteArray) : Mild (freshBuffer h bytes) := by
  intro e h' failed
  obtain ⟨_, _, same⟩ := Option.map_eq_some_iff.mp failed
  cases same

/-- Whatever it is called with, it does no worse than to refuse. -/
def OnlyRefuses (c : Capability) : Prop := ∀ f, c.action = .run f → ∀ args h, Mild (f args h)

theorem OnlyRefuses.of_run {c : Capability} {f : List Val → Host → Response} (action : c.action = .run f)
    (mild : ∀ args h, Mild (f args h)) : OnlyRefuses c := by
  intro f' action'
  cases action.symm.trans action'
  exact mild

theorem get_error {t : Buffers} {k : Handle} {e : Error} (failed : t.get k = .error e) :
    e = .invalidBuffer k := by
  unfold Buffers.get at failed
  split at failed
  · cases failed
  · cases failed
    rfl

theorem consuming_refuses {results : List Wasm.ValType} {g : Array UInt8 → Host → Except Failure (List Val) × Host}
    (rest : ∀ bytes h, Mild (some (g bytes h))) : OnlyRefuses (consuming results g) := by
  refine .of_run rfl fun args h => ?_
  split
  · split
    · exact rest _ _
    · next missing =>
        rw [Host.take_error (congrArg Prod.fst missing)]
        exact mild_hostError rfl _
  · exact mild_badArguments h

theorem write_refuses (o : Outlet) (s : Stream) : OnlyRefuses (write o s) := by
  refine consuming_refuses fun bytes h => ?_
  split
  · exact mild_ok _ _
  · exact mild_message _ _

theorem toNumber_refuses : OnlyRefuses toNumber := consuming_refuses fun _ _ => mild_ok _ _

theorem toInteger_refuses : OnlyRefuses toInteger := by
  refine consuming_refuses fun bytes h => ?_
  split
  · exact mild_ok _ h
  · exact mild_hostError rfl h

theorem bufferDrop_refuses : OnlyRefuses bufferDrop := consuming_refuses fun _ _ => mild_ok _ _

theorem integerText_refuses : OnlyRefuses integerText := by
  refine .of_run rfl fun args h => ?_
  split
  · exact mild_freshBuffer _ _
  · exact mild_badArguments h

theorem numberText_refuses : OnlyRefuses numberText := by
  refine .of_run rfl fun args h => ?_
  split
  · exact mild_freshBuffer _ _
  · exact mild_badArguments h

theorem power_refuses : OnlyRefuses power := by
  refine .of_run rfl fun args h => ?_
  split
  · exact mild_ok _ h
  · exact mild_badArguments h

theorem bufferNew_refuses : OnlyRefuses bufferNew := by
  refine .of_run rfl fun args h => ?_
  split
  · dsimp only
    split
    · exact mild_hostError rfl h
    · exact mild_freshBuffer _ _
  · exact mild_badArguments h

theorem bufferSet_refuses : OnlyRefuses bufferSet := by
  refine .of_run rfl fun args h => ?_
  split
  · next w _ _ =>
      dsimp only
      split
      · next e missing =>
          cases got : h.buffers.get w.toInt32 with
          | ok bytes =>
              rw [got] at missing
              cases missing
          | error e' =>
              rw [got] at missing
              cases missing
              rw [get_error got]
              exact mild_hostError rfl h
      · split
        · exact mild_ok _ _
        · exact mild_hostError rfl h
  · exact mild_badArguments h

theorem bufferGet_refuses : OnlyRefuses bufferGet := by
  refine .of_run rfl fun args h => ?_
  split
  · dsimp only
    split
    · next missing =>
        rw [get_error missing]
        exact mild_hostError rfl h
    · split
      · exact mild_ok _ h
      · exact mild_hostError rfl h
  · exact mild_badArguments h

theorem bufferSize_refuses : OnlyRefuses bufferSize := by
  refine .of_run rfl fun args h => ?_
  split
  · dsimp only
    split
    · next missing =>
        rw [get_error missing]
        exact mild_hostError rfl h
    · split
      · exact mild_ok _ h
      · exact mild_hostError rfl h
  · exact mild_badArguments h

theorem load_refuses : OnlyRefuses load := by
  intro f action
  cases action

/-- All defaults but the one that raises values only refuse. -/
theorem default_refuses {o : Outlet} {ns name : String} {c : Capability}
    (found : (defaults o).get? ns name = some c) :
    (ns, name) = ("error", "throw") ∧ c = throw ∨ OnlyRefuses c := by
  have among := mem_defaults found
  simp only [List.mem_cons, List.not_mem_nil, Prod.mk.injEq, or_false] at among
  rcases among with ⟨rfl, rfl, rfl⟩ | ⟨_, _, rfl⟩ | ⟨_, _, rfl⟩ | ⟨_, _, rfl⟩ | ⟨_, _, rfl⟩ | ⟨_, _, rfl⟩ |
    ⟨_, _, rfl⟩ | ⟨_, _, rfl⟩ | ⟨_, _, rfl⟩ | ⟨_, _, rfl⟩ | ⟨_, _, rfl⟩ | ⟨_, _, rfl⟩ | ⟨_, _, rfl⟩ | ⟨_, _, rfl⟩
  · exact .inl ⟨rfl, rfl⟩
  · exact .inr bufferDrop_refuses
  · exact .inr bufferSize_refuses
  · exact .inr bufferGet_refuses
  · exact .inr bufferSet_refuses
  · exact .inr bufferNew_refuses
  · exact .inr power_refuses
  · exact .inr numberText_refuses
  · exact .inr integerText_refuses
  · exact .inr toInteger_refuses
  · exact .inr toNumber_refuses
  · exact .inr (write_refuses o .errors)
  · exact .inr (write_refuses o .output)
  · exact .inr load_refuses

/-- A function of the host fails by itself, or because of results that its signature forbids. -/
theorem run_error {c : Capability} {f : List Val → Host → Response} {args : List Val} {h h' : Host}
    {e : Failure} (failed : c.run f args h = some (.error e, h')) :
    (∃ left, f args { h with trace := #[] } = some (.error e, left)) ∨ e = badResults := by
  obtain ⟨r, left, ran, own, -⟩ := run_eq_some.mp failed
  cases r with
  | error e' =>
      cases own
      exact .inl ⟨left, ran⟩
  | ok vals =>
      change .error e = c.checked vals at own
      unfold checked at own
      dsimp only at own
      split at own
      · cases own
      · cases own
        exact .inr rfl

theorem OnlyRefuses.run {c : Capability} (only : OnlyRefuses c) {f : List Val → Host → Response}
    (action : c.action = .run f) {args : List Val} {h h' : Host} {e : Failure}
    (failed : c.run f args h = some (.error e, h')) : e.Refusal := by
  rcases run_error failed with ⟨left, own⟩ | rfl
  · exact only f action args _ e left own
  · exact .inl rfl

/-- Raising a value leaves the host as it was. -/
theorem throw_run (w : UInt32) (h : Host) :
    ∃ f, throw.action = .run f ∧ throw.run f [.i32 w] h = some (.error (.thrown w.toInt32), h) :=
  ⟨_, rfl, by simp [run, Except.bind]⟩

theorem throw_error {f : List Val → Host → Response} (action : throw.action = .run f) {args : List Val}
    {h h' : Host} {e : Failure} (failed : throw.run f args h = some (.error e, h')) :
    e.Refusal ∨ ∃ w, args = [.i32 w] ∧ e = .thrown w.toInt32 := by
  cases action
  rcases run_error failed with ⟨left, own⟩ | rfl
  · split at own
    · next w =>
        cases own
        exact .inr ⟨w, rfl, rfl⟩
    · exact .inl (mild_badArguments _ e left own)
  · exact .inl (.inl rfl)

end Capability

namespace Machine

/-! ## Raised values -/

/-- A guest raises a value. -/
def State.Raises (m : State) (w : UInt32) : Prop :=
  ∃ func, m.control = .enter func [.i32 w] ∧ m.store.funcs[func]? = some (.host Capability.throw)

variable {env : Environment} {m m' : State} {w : UInt32} {e : Failure} {s : Store}

theorem step_raises (env : Environment) (raises : m.Raises w) :
    step env m = fail m.store m.waiting (.thrown w.toInt32) := by
  obtain ⟨func, entered, found⟩ := raises
  obtain ⟨t, control, ws⟩ := m
  cases entered
  obtain ⟨f, action, ran⟩ := Capability.throw_run w t.host
  simp only [step, enter, found, action, ran]

/-- A load under way fails with a text, whatever ended it. -/
theorem carried_succ (e : Failure) (n : Nat) :
    ∃ text, Failure.carried^[n + 1] e = .host (.instantiate text) :=
  ⟨_, Function.iterate_succ_apply' ..⟩

theorem Failure.Refusal.carried (refusal : e.Refusal) (n : Nat) : (Failure.carried^[n] e).Refusal := by
  cases n with
  | zero => exact refusal
  | succ n =>
      obtain ⟨text, same⟩ := carried_succ e n
      exact .inr ⟨_, same, rfl⟩

/-- What is raised ends the run. If a module is being instantiated, it is lost but for its
wording. -/
theorem step_raised (env : Environment) (raises : m.Raises w) :
    (loading m.waiting = 0 → step env m = .finished (.error (.thrown w.toInt32)) m.store) ∧
      (0 < loading m.waiting →
        ∃ text t, step env m = .finished (.error (.host (.instantiate text))) t) := by
  rw [step_raises env raises, fail_eq]
  constructor
  · intro none
    rw [none]
    simp [lost, Store.appending, Store.mapHost]
  · intro some
    obtain ⟨n, same⟩ := Nat.exists_eq_succ_of_ne_zero (Nat.ne_of_gt some)
    obtain ⟨text, lost⟩ := carried_succ (.thrown w.toInt32) n
    rw [same, lost]
    exact ⟨text, _, rfl⟩

/-! ## Last steps -/

/-- A step that ends a run by a failure raises a value, with no load under way, or refuses. -/
theorem step_fails {links : Links} (backed : Backed links m.store)
    (finished : step env m = .finished (.error e) s) :
    e.Refusal ∨ ∃ w, m.Raises w ∧ loading m.waiting = 0 ∧ e = .thrown w.toInt32 ∧ s = m.store := by
  have turn := step_turn env m
  rw [finished] at turn
  generalize whole : Progress.finished (.error e) s = p at turn
  cases turn with
  | moves => cases whole
  | ends => cases whole
  | answers => cases whole
  | starts => cases whole
  | returns => cases whole
  | traps t =>
      rw [fail_eq] at whole
      cases whole
      exact .inl (Failure.Refusal.carried (.inl rfl) _)
  | rejects _ begun =>
      rw [failLoad_eq] at whole
      cases whole
      exact .inl (Failure.Refusal.carried (.inr ⟨_, rfl, Error.isCause_of_stopsLoad (beginLoad_stopsLoad begun)⟩) _)
  | entryless =>
      rw [failLoad_eq] at whole
      cases whole
      exact .inl (Failure.Refusal.carried (.inr ⟨_, rfl, rfl⟩) _)
  | refuses serves =>
      obtain ⟨func, args, c, f, entered, found, action, ran⟩ := serves
      obtain ⟨o, ns, name, provided, _⟩ := backed found
      rcases Capability.default_refuses provided with ⟨_, rfl⟩ | only
      · rcases Capability.throw_error action ran with refusal | ⟨w, rfl, rfl⟩
        · rw [fail_eq] at whole
          cases whole
          exact .inl (refusal.carried _)
        · have raises : m.Raises w := ⟨func, entered, found⟩
          obtain ⟨own, loads⟩ := step_raised env raises
          rcases Nat.eq_zero_or_pos (loading m.waiting) with none | some
          · cases finished.symm.trans (own none)
            exact .inr ⟨w, raises, none, rfl, rfl⟩
          · obtain ⟨text, t, lost⟩ := loads some
            cases finished.symm.trans lost
            exact .inl (.inr ⟨_, rfl, rfl⟩)
      · rw [fail_eq] at whole
        cases whole
        exact .inl ((only.run action ran).carried _)

/-! ## Runs -/

/-- A run that ends has a last state. -/
theorem run_last {n : Nat} {r : Except Failure (List Val)} (ended : run env n m = some (r, s)) :
    ∃ m', Reaches env m m' ∧ step env m' = .finished r s := by
  induction n generalizing m with
  | zero => cases ended
  | succ n ih =>
      rw [run] at ended
      split at ended
      · next next =>
          obtain ⟨m', reached, finished⟩ := ih ended
          exact ⟨m', .head next reached, finished⟩
      · next finished =>
          cases ended
          exact ⟨m, .refl, finished⟩

/-- A run that gets to its last state ends. -/
theorem run_of_last {r : Except Failure (List Val)} (reached : Reaches env m m')
    (finished : step env m' = .finished r s) : ∃ n, ∀ fuel ≥ n, run env fuel m = some (r, s) := by
  have ends : ∃ n, run env n m = some (r, s) := by
    induction reached using Relation.ReflTransGen.head_induction_on with
    | refl => exact ⟨1, by simp only [run, finished]⟩
    | head next _ ih =>
        obtain ⟨n, ended⟩ := ih
        exact ⟨n + 1, by simp only [run, next, ended]⟩
  obtain ⟨n, ended⟩ := ends
  refine ⟨n, fun fuel enough => ?_⟩
  obtain ⟨k, rfl⟩ := Nat.exists_eq_add_of_le enough
  exact run_mono ended

/-- A run fails because a value is raised in its last state, with no load under way, or because
something is refused. -/
theorem run_fails {links : Links} {n : Nat} (backed : Backed links m.store)
    (ended : run env n m = some (.error e, s)) :
    e.Refusal ∨ ∃ m' w, Reaches env m m' ∧ m'.Raises w ∧ loading m'.waiting = 0 ∧
      e = .thrown w.toInt32 ∧ s = m'.store := by
  obtain ⟨m', reached, finished⟩ := run_last ended
  have backed' := (backed_lasting env links).toLasting.reached reached backed
  rcases step_fails backed' finished with refusal | ⟨w, raises, none, raised, left⟩
  · exact .inl refusal
  · exact .inr ⟨m', w, reached, raises, none, raised, left⟩

end Machine

end GuestHost
