import GuestHost.Compiler.Builtin
import GuestHost.Proofs.Machine.Abstinence
import GuestHost.Proofs.Machine.Endings
import GuestHost.Proofs.Session.Imports
import GuestHost.Proofs.Session.NestedLoads

/-! What calls fail with. The kind of the error tells where a call failed: a value did not get
across the boundary, or the entry's own run raised one, asked the host for what it refused, or
trapped. -/

namespace GuestHost

open Machine
open Wasm (FuncType ValType)

/-! ## Crossing the boundary -/

namespace Guest

variable {α β : Type}

/-- It fails only with what crossing the boundary can fail with. -/
def Marshals (work : Guest α) : Prop :=
  ∀ ⦃s s' e⦄, work.run s = some (.error e, s') → e.isMarshaling = true

namespace Marshals

theorem pure (a : α) : Marshals (Pure.pure a : Guest α) := by
  intro s s' e failed
  cases failed

theorem throw {e : Error} (kind : e.isMarshaling = true) : Marshals (MonadExcept.throw e : Guest α) := by
  intro s s' e' failed
  cases failed
  exact kind

theorem bind {work : Guest α} {rest : α → Guest β} (h : Marshals work) (h' : ∀ a, Marshals (rest a)) :
    Marshals (work >>= rest) := by
  intro s s' e failed
  rcases run_bind_eq_some failed with ⟨e', first, same⟩ | ⟨a, s₁, _, second⟩
  · cases same
    exact h first
  · exact h' a second

end Marshals

end Guest

namespace Boundary

open Guest

variable {b : Boundary}

/-- A helper fails because the instance does not export it, or because its run does; all that
is left then of what ended the run is a text. -/
theorem helper_fails {name : String} {type : FuncType} {args : List Val} {s s' : Store} {e : Error}
    (failed : (b.helper name type args).run s = some (.error e, s')) :
    e = .missingExport name ∨ ∃ a f, s.exportedFunc? b.support name = some a ∧
      Machine.invoke b.env b.fuel s a args = some (.error f, s') ∧ e = .trap (name ++ ": " ++ f.text) := by
  rw [helper, run_bind, show (get : Guest Store).run s = some (.ok s, s) from rfl, Option.bind_some] at failed
  dsimp only at failed
  split at failed
  · cases failed
    exact .inl rfl
  · next a exported =>
      obtain ⟨exported, _⟩ := Option.filter_eq_some_iff.mp exported
      rcases run_bind_eq_some failed with ⟨e', ran, same⟩ | ⟨r, s₁, ran, failed⟩
      · obtain ⟨⟨_, _⟩, _, other⟩ := Option.bind_eq_some_iff.mp ran
        cases other
      · obtain ⟨⟨_, _⟩, runs, same⟩ := Option.bind_eq_some_iff.mp ran
        cases same
        cases r with
        | ok vals => cases failed
        | error f =>
            cases failed
            exact .inr ⟨a, f, exported, runs, rfl⟩

theorem helper_marshals (name : String) (type : FuncType) (args : List Val) :
    Marshals (b.helper name type args) := by
  intro s s' e failed
  rcases helper_fails failed with rfl | ⟨_, _, _, _, rfl⟩
  · rfl
  · rfl

theorem word_marshals (name : String) (params : List ValType) (args : List Val) :
    Marshals (b.word name params args) := by
  refine .bind (helper_marshals _ _ _) fun vals => ?_
  split
  · exact .pure _
  · exact .throw rfl

theorem lowerText_marshals (text : String) : Marshals (b.lowerText text) := by
  intro s s' e failed
  obtain ⟨_, _, t, -, boxing, -⟩ := lowerText_ends failed
  exact word_marshals _ _ _ boxing

theorem liftText_marshals (v : UInt32) : Marshals (b.liftText v) := by
  intro s s' e failed
  generalize outcome : (Except.error e : Except Error Value) = r at failed
  cases liftText_ends failed with
  | refused failed =>
      cases outcome
      exact word_marshals _ _ _ failed
  | @copied buffer t answered =>
      cases taken : (t.host.take buffer.toInt32).1 with
      | ok bytes =>
          rw [taken] at outcome
          cases outcome
      | error e =>
          rw [taken] at outcome
          cases outcome
          rw [Host.take_error taken]
          rfl

theorem marshals_congruence : Congruence (fun x _ => Marshals x) b b where
  pure := .pure
  throw := .throw
  bind := .bind
  helper _ := helper_marshals _ _ _
  lowerText := lowerText_marshals
  liftText := liftText_marshals

/-- What the end of a run that succeeded comes to. -/
theorem conclude_ok_marshals (vals : List Val) : Marshals (b.conclude (.ok vals)) := by
  unfold conclude
  split
  · exact marshals_congruence.unpack _
  · exact .throw rfl
  · next same => cases same

/-- A failure of the guest is a trap. -/
theorem conclude_plain {f : Failure} (plain : f.isPlain = true) (s : Store) :
    (b.conclude (.error f)).run s = some (.error (.trap f.text), s) := by
  cases f with
  | trap | message => rfl
  | thrown | host => cases plain

end Boundary

namespace Session

/-! ## The entry's own run -/

/-- When a session is open, the functions of the host in its store are the defaults, if it
overrides none of them. -/
theorem openWith_backed {fuel id : Nat} {compiler : Compiler} {config : Config} {s : Session} {host : Host}
    (default : config.overrides = .empty) (opened : openWith fuel id compiler config = some (.ok s, host)) :
    Backed (s.env.links.getD .empty) s.store := by
  intro a c found
  obtain ⟨ns, name, provided, linked⟩ := openWith_furnished opened found
  exact ⟨config.outlet, ns, name, Config.capability?_default default ns name ▸ provided, linked⟩

/-- A state that the entry's own run goes through when it is called with arguments. -/
def Passes (fuel : Nat) (s : Session) (e : Entry) (args : List Value) (m : State) : Prop :=
  ∃ packed t, ((⟨s.env, fuel, e.support⟩ : Boundary).pack args).run s.store = some (.ok packed, t) ∧
    Reaches s.env ⟨t, .enter e.func [.i32 packed], []⟩ m

/-- What is between a session's host and an entry of it. -/
abbrev boundary (fuel : Nat) (s : Session) (e : Entry) : Boundary := ⟨s.env, fuel, e.support⟩

/-- When the entry is called with arguments, its own run takes place and ends so. -/
structure Runs (fuel : Nat) (s : Session) (e : Entry) (args : List Value) (r : Except Failure (List Val))
    (u : Store) : Prop where
  own : e.session = s.id
  typed : s.store.hasType e.func Boundary.entryType = true
  ends : ∃ packed t, ((s.boundary fuel e).pack args).run s.store = some (.ok packed, t) ∧
    invoke s.env fuel t e.func [.i32 packed] = some (r, u)

variable {fuel : Nat} {s s' : Session} {e : Entry} {args : List Value} {m : State} {u : Store}

/-- Then the call comes to what the run's end comes to. -/
theorem Runs.call {end_ : Except Failure (List Val)} (runs : s.Runs fuel e args end_ u) :
    s.call fuel e args = (((s.boundary fuel e).conclude end_).run u).map fun (r, store) =>
      (r, { s with store }) := by
  obtain ⟨packed, t, packs, ran⟩ := runs.ends
  rw [Session.call, if_pos runs.own, Boundary.call_run runs.typed packs ran]

theorem Passes.becomes (passes : s.Passes fuel e args m) : Becomes s.env s.store m.store := by
  obtain ⟨packed, t, packs, reached⟩ := passes
  have packing := Boundary.pack_keeps (b := s.boundary fuel e) (becomes_lasting s.env) args packs
  exact (becomes_lasting s.env).trans packing ((becomes_lasting s.env).toLasting.reached reached)

/-- A state of the entry's own run that is its last one decides how the run ends. -/
theorem Runs.of_last {end_ end' : Except Failure (List Val)} {u' : Store} (runs : s.Runs fuel e args end_ u)
    (passes : s.Passes fuel e args m) (finished : step s.env m = .finished end' u') : end_ = end' ∧ u = u' := by
  obtain ⟨packed, t, packs, ran⟩ := runs.ends
  obtain ⟨packed', t', packs', reached⟩ := passes
  cases packs.symm.trans packs'
  obtain ⟨n, ends⟩ := run_of_last reached finished
  have same := run_unique ran (ends n le_rfl)
  cases same
  exact ⟨rfl, rfl⟩

/-- What a call can fail with, and where it fails. -/
inductive Verdict (fuel : Nat) (s : Session) (e : Entry) (args : List Value) : Error → Prop
  | foreign (other : e.session ≠ s.id) : Verdict fuel s e args .foreignEntry
  | untyped (other : s.store.hasType e.func Boundary.entryType = false) :
      Verdict fuel s e args (.missingExport entryName)
  | packing {x : Error} {t : Store} (kind : x.isMarshaling = true)
      (packs : ((s.boundary fuel e).pack args).run s.store = some (.error x, t)) :
      Verdict fuel s e args x
  | unpacking {vals : List Val} {x : Error} {u t : Store} (runs : s.Runs fuel e args (.ok vals) u)
      (kind : x.isMarshaling = true)
      (concludes : ((s.boundary fuel e).conclude (.ok vals)).run u = some (.error x, t)) :
      Verdict fuel s e args x
  /-- The entry raised a value, and not while a module was being instantiated. -/
  | raised {m : State} {w : UInt32} {v : Value} {t : Store} (passes : s.Passes fuel e args m)
      (enters : m.Enters s.env ("error", "throw") [.i32 w]) (own : loading m.waiting = 0)
      (runs : s.Runs fuel e args (.error (.thrown w.toInt32)) m.store)
      (lifts : ((s.boundary fuel e).lift w).run m.store = some (.ok v, t)) :
      Verdict fuel s e args (.runtime v)
  /-- The value that the entry raised cannot be lifted. -/
  | unlifted {m : State} {w : UInt32} {x : Error} {t : Store} (passes : s.Passes fuel e args m)
      (enters : m.Enters s.env ("error", "throw") [.i32 w]) (own : loading m.waiting = 0)
      (runs : s.Runs fuel e args (.error (.thrown w.toInt32)) m.store) (kind : x.isMarshaling = true)
      (lifts : ((s.boundary fuel e).lift w).run m.store = some (.error x, t)) :
      Verdict fuel s e args x
  /-- A function of the host refused, or a load failed. -/
  | caused {cause : Error} {u : Store} (runs : s.Runs fuel e args (.error (.host cause)) u)
      (kind : cause.isCause = true) : Verdict fuel s e args (.host cause)
  | trapped {f : Failure} {u : Store} (runs : s.Runs fuel e args (.error f) u) (plain : f.isPlain = true) :
      Verdict fuel s e args (.trap f.text)

/-! ## Raised values -/

end Session

theorem Capability.not_onlyRefuses_throw : ¬ OnlyRefuses throw := by
  intro only
  rcases only _ rfl [.i32 0] {} _ _ rfl with plain | ⟨_, same, _⟩
  · cases plain
  · cases same

namespace Machine

variable {env : Environment} {m : State} {w : UInt32}

/-- With default functions only, a value is raised through the one with that name. -/
theorem State.Raises.enters (raises : m.Raises w) (backed : Backed (env.links.getD .empty) m.store) :
    m.Enters env ("error", "throw") [.i32 w] := by
  obtain ⟨func, entered, found⟩ := raises
  obtain ⟨o, ns, name, provided, linked⟩ := backed found
  rcases Capability.default_refuses provided with ⟨same, _⟩ | only
  · exact ⟨func, entered, same ▸ linked⟩
  · exact absurd only Capability.not_onlyRefuses_throw

/-- Unless a configuration replaces it, the function with that name raises values. -/
theorem State.Enters.raises {config : Config} {support : Option Nat} {links : Links}
    (enters : m.Enters env ("error", "throw") [.i32 w]) (complete : env.links = some links)
    (resolution : Session.Resolution config support links m.store)
    (provided : config.capability? "error" "throw" = some Capability.throw) : m.Raises w := by
  obtain ⟨func, entered, linked⟩ := enters
  obtain ⟨a, linked', found⟩ := resolution.capability provided
  rw [complete] at linked
  cases linked.symm.trans linked'
  exact ⟨func, entered, found⟩

end Machine

namespace Session

variable {fuel : Nat} {s s' : Session} {e : Entry} {args : List Value}

/-! ## Calls -/

/-- Where a call fails whose entry's own run fails. -/
theorem Runs.verdict {f : Failure} {x : Error} {u u' : Store} (runs : s.Runs fuel e args (.error f) u)
    (backed : Backed (s.env.links.getD .empty) s.store)
    (concludes : ((s.boundary fuel e).conclude (.error f)).run u = some (.error x, u')) :
    Verdict fuel s e args x := by
  obtain ⟨packed, t, packs, ran⟩ := runs.ends
  have backed_t : Backed (s.env.links.getD .empty) t :=
    Boundary.pack_keeps (b := s.boundary fuel e) (backed_lasting s.env _) args packs backed
  rcases run_fails backed_t ran with (plain | ⟨cause, rfl, kind⟩) | ⟨m, w, reached, raises, own, rfl, rfl⟩
  · rw [Boundary.conclude_plain plain] at concludes
    cases concludes
    exact .trapped runs plain
  · cases concludes
    exact .caused runs kind
  · have passes : s.Passes fuel e args m := ⟨packed, t, packs, reached⟩
    have enters := raises.enters ((backed_lasting s.env _).toLasting.reached reached backed_t)
    rcases Guest.run_bind_eq_some concludes with ⟨e', lifts, same⟩ | ⟨v, t', lifts, raised⟩
    · cases same
      rw [UInt32.toUInt32_toInt32] at lifts
      exact .unlifted passes enters own runs (Boundary.marshals_congruence.lift _ lifts) lifts
    · cases raised
      rw [UInt32.toUInt32_toInt32] at lifts
      exact .raised passes enters own runs lifts

/-- Where a call can fail. -/
theorem call_verdict {x : Error} (backed : Backed (s.env.links.getD .empty) s.store)
    (called : s.call fuel e args = some (.error x, s')) : Verdict fuel s e args x := by
  rw [call] at called
  split at called
  · next own =>
      obtain ⟨⟨r, store⟩, ended, same⟩ := Option.map_eq_some_iff.mp called
      cases same
      cases Boundary.call_ends ended with
      | untyped other => exact .untyped other
      | unpacked packs => exact .packing (Boundary.marshals_congruence.pack args packs) packs
      | @ran packed t u _ end_ _ packs ran concludes typed =>
          have runs : s.Runs fuel e args end_ u := ⟨own, typed, packed, t, packs, ran⟩
          cases end_ with
          | ok vals => exact .unpacking runs (Boundary.conclude_ok_marshals vals concludes) concludes
          | error f => exact runs.verdict backed concludes
  · next other =>
      cases called
      exact .foreign other

/-! ## Loads -/

/-- Loading a script never raises a value, whatever its start function does. -/
theorem load_isCause {source : Array UInt8} {x : Error} (failed : s.load fuel source = some (.error x, s')) :
    x.isCause = true := by
  cases load_ends failed with
  | rejected compiled => exact Error.isCause_of_stopsLoad (Host.compile_stopsLoad (congrArg Prod.fst compiled))
  | failed compiled launched =>
      cases launch_ends launched with
      | refused made => exact Error.isCause_of_stopsLoad (instantiate_stopsLoad made)
      | failed => rfl
  | entryless => rfl

/-! ## Sessions -/

/-- What the errors of a call tell. -/
structure Classified (fuel : Nat) (s : Session) (e : Entry) (args : List Value) : Prop where
  verdict : ∀ {x s'}, s.call fuel e args = some (.error x, s') → Verdict fuel s e args x
  /-- A value is reported only if the entry's own run ended by raising it. -/
  runtime : ∀ {v s'}, s.call fuel e args = some (.error (.runtime v), s') →
    ∃ m w t, s.Passes fuel e args m ∧ m.Enters s.env ("error", "throw") [.i32 w] ∧ loading m.waiting = 0 ∧
      s.Runs fuel e args (.error (.thrown w.toInt32)) m.store ∧
      ((s.boundary fuel e).lift w).run m.store = some (.ok v, t)
  /-- One that is raised while a module is being instantiated fails the load. -/
  discarded : ∀ {m w end_ u}, s.Passes fuel e args m → m.Enters s.env ("error", "throw") [.i32 w] →
    0 < loading m.waiting → s.Runs fuel e args end_ u →
      ∃ text, end_ = .error (.host (.instantiate text)) ∧
        s.call fuel e args = some (.error (.host (.instantiate text)), { s with store := u })
  /-- The host is blamed only if the entry's own run ended by what a function of it, or a load,
  failed with. -/
  host : ∀ {cause s'}, s.call fuel e args = some (.error (.host cause), s') →
    cause.isCause = true ∧ ∃ u, s.Runs fuel e args (.error (.host cause)) u
  /-- Any other failure of the entry's own run is a trap. -/
  trap : ∀ {f u}, s.Runs fuel e args (.error f) u → f.isPlain = true →
    s.call fuel e args = some (.error (.trap f.text), { s with store := u })

/-- Whatever else a configuration replaces, what enters the default function for it raises a
value. -/
theorem entered_raises {fuel₀ id : Nat} {compiler : Compiler} {config : Config} {s₀ s : Session} {host : Host}
    (default : config.capability? "error" "throw" = some Capability.throw)
    (opened : openWith fuel₀ id compiler config = some (.ok s₀, host)) (reached : Reached s₀ s) {m : State}
    {w : UInt32} (later : Becomes s.env s.store m.store) (enters : m.Enters s.env ("error", "throw") [.i32 w]) :
    m.Raises w := by
  obtain ⟨_, links, complete, resolution⟩ := openWith_resolution opened
  have env := reached.continues.env
  rw [← env] at complete
  have became : Becomes s.env s₀.store m.store :=
    (becomes_lasting s.env).trans (env ▸ reached.becomes) later
  exact enters.raises complete (resolution.grow (became.keeps (grows_lasting s.env).toLasting .withHost)) default

/-- The errors of a session without capabilities of its own. Loads fail with causes, and so does
every run of theirs that raises a value. Of what ends a helper's run only a text is left, and
nothing that fails to get across the boundary is taken for a value or for the host's fault. -/
theorem errors_classified {fuel₀ id : Nat} {compiler : Compiler} {config : Config} {s₀ s : Session} {host : Host}
    (default : config.overrides = .empty) (opened : openWith fuel₀ id compiler config = some (.ok s₀, host))
    (reached : Reached s₀ s) :
    (∀ fuel e args, s.Classified fuel e args) ∧
    (∀ {fuel source x s'}, s.load fuel source = some (.error x, s') → x.isCause = true) ∧
    (∀ {m : State} {w}, Becomes s.env s.store m.store → m.Enters s.env ("error", "throw") [.i32 w] →
      0 < loading m.waiting → ∃ text t, step s.env m = .finished (.error (.host (.instantiate text))) t) ∧
    ∀ b : Boundary, (∀ {name type args x t u}, (b.helper name type args).run t = some (.error x, u) →
        x = .missingExport name ∨ ∃ a f, t.exportedFunc? b.support name = some a ∧
          invoke b.env b.fuel t a args = some (.error f, u) ∧ x = .trap (name ++ ": " ++ f.text)) ∧
      (∀ args, (b.pack args).Marshals) ∧ (∀ array, (b.unpack array).Marshals) ∧ ∀ w, (b.lift w).Marshals := by
  have provided : config.capability? "error" "throw" = some Capability.throw := by
    rw [Config.capability?_default default]
    simp [Capability.defaults, Registry.get?_add]
  have env := reached.continues.env
  have backed : Backed (s.env.links.getD .empty) s.store := by
    have backed := openWith_backed default opened
    rw [← env] at backed
    exact (env ▸ reached.becomes).keeps (backed_lasting _ _).toLasting (fun _ _ backed => backed) backed
  have loses {m : State} {w : UInt32} (later : Becomes s.env s.store m.store)
      (enters : m.Enters s.env ("error", "throw") [.i32 w]) (some : 0 < loading m.waiting) :
      ∃ text t, step s.env m = .finished (.error (.host (.instantiate text))) t :=
    (step_raised s.env (entered_raises provided opened reached later enters)).2 some
  refine ⟨fun fuel e args => ⟨call_verdict backed, fun called => ?_, fun passes enters some runs => ?_,
    fun called => ?_, fun runs plain => ?_⟩, load_isCause, loses,
    fun b => ⟨Boundary.helper_fails, Boundary.marshals_congruence.pack, Boundary.marshals_congruence.unpack,
      Boundary.marshals_congruence.lift⟩⟩
  · cases call_verdict backed called with
    | raised passes enters own runs lifts => exact ⟨_, _, _, passes, enters, own, runs, lifts⟩
    | packing kind | unpacking _ kind | unlifted _ _ _ _ kind => cases kind
  · obtain ⟨text, t, finished⟩ := loses passes.becomes enters some
    obtain ⟨rfl, rfl⟩ := runs.of_last passes finished
    refine ⟨text, rfl, ?_⟩
    rw [runs.call]
    rfl
  · cases call_verdict backed called with
    | caused runs kind => exact ⟨kind, _, runs⟩
    | packing kind | unpacking _ kind | unlifted _ _ _ _ kind => cases kind
  · rw [runs.call, Boundary.conclude_plain plain]
    rfl

/-! ## Scripts -/

/-- A module with a function that raises nil, and has it run at the start or exports it as its
entry. -/
def thrower (atStart : Bool) : Wasm.Module where
  types := [⟨[.i32], [.i32]⟩, ⟨[.i32], []⟩, ⟨[], []⟩]
  imports := [⟨"error", "throw", .func 1⟩]
  funcs := [0, 2]
  exports := [⟨entryName, .func, 1⟩]
  start := if atStart then some 2 else none
  bodies :=
    [⟨[], [.plain (.i32Const 0), .call 0, .plain (.i32Const 0), .close]⟩,
     ⟨[], [.plain (.i32Const 0), .call 1, .plain .drop, .close]⟩]

/-- Whether the entry's own run takes place, and ends in a way that passes a test. -/
def finishesWith (fuel : Nat) (e : Entry) (args : List Value) (test : Except Failure (List Val) → Store → Bool)
    (s : Session) : Bool :=
  decide (e.session = s.id) && s.store.hasType e.func Boundary.entryType &&
    match ((s.boundary fuel e).pack args).run s.store with
    | some (.ok packed, t) => (invoke s.env fuel t e.func [.i32 packed]).any fun (end_, u) => test end_ u
    | _ => false

theorem finishesWith_spec {fuel : Nat} {e : Entry} {args : List Value} {s : Session}
    {test : Except Failure (List Val) → Store → Bool} (h : finishesWith fuel e args test s = true) :
    ∃ end_ u, s.Runs fuel e args end_ u ∧ test end_ u = true := by
  unfold finishesWith at h
  rw [Bool.and_eq_true, Bool.and_eq_true, decide_eq_true_eq] at h
  obtain ⟨⟨own, typed⟩, h⟩ := h
  split at h
  · next packed t packs =>
      obtain ⟨⟨end_, u⟩, ran, passed⟩ := (Option.any_eq_true _ _).mp h
      exact ⟨end_, u, ⟨own, typed, packed, t, packs, ran⟩, passed⟩
  · cases h

/-- A script that writes a byte. -/
def writerModule : Wasm.Module where
  types := [⟨[.i32], [.i32]⟩, ⟨[.i32], []⟩]
  imports := [⟨"buffer", "new", .func 0⟩, ⟨"native", "stdout", .func 1⟩]
  funcs := [0]
  exports := [⟨entryName, .func, 2⟩]
  bodies := [⟨[], [.plain (.i32Const 1), .call 0, .call 1, .plain (.i32Const 0), .close]⟩]

/-- A compiler that makes of 0 a script that loads 1, of 1 a module whose start function raises
nil, of 2 a script that does, and of everything else one that writes. -/
def raising : Compiler where
  answer
    | .support optimize => Builtin.compiler.answer (.support optimize)
    | .script source _ =>
      .ok { payload := (Wasm.Binary.module
        (if source = #[0] then loader 1 false else if source = #[1] then thrower true
          else if source = #[2] then thrower false else writerModule)).toArray }

/-- The default capabilities, with nowhere to write to. -/
def fullConfig : Config where
  outlet := ⟨fun _ _ _ => .broken 0 "disk full"⟩

set_option maxRecDepth 100000 in
/-- What a script raises is reported; what a module raises that it loads is not. A write that fails
is a trap, and none of the host's refusals. -/
theorem raising_classified : ∃ s₀ host e listing s₁ e' listing' s₂ e'' listing'' s s' m w t cause s'' u,
    openWith 100 0 raising fullConfig = some (.ok s₀, host) ∧ fullConfig.overrides = .empty ∧
      s₀.load 100 #[2] = some (.ok (e, listing), s₁) ∧ s₁.load 100 #[0] = some (.ok (e', listing'), s₂) ∧
      s₂.load 100 #[3] = some (.ok (e'', listing''), s) ∧
      s.call 100 e [] = some (.error (.runtime .nil), s') ∧ s.Passes 100 e [] m ∧
      m.Enters s.env ("error", "throw") [.i32 w] ∧ loading m.waiting = 0 ∧
      ((s.boundary 100 e).lift w).run m.store = some (.ok .nil, t) ∧
      s.call 100 e' [] = some (.error (.host cause), s'') ∧ cause.isCause = true ∧
      s.Runs 100 e'' [] (.error (.message "disk full")) u ∧
      s.call 100 e'' [] = some (.error (.trap "disk full"), { s with store := u }) := by
  have checked : opensWith (openWith 100 0 raising fullConfig) (loadsWith 100 #[2] fun e =>
      loadsWith 100 #[0] fun e' => loadsWith 100 #[3] fun e'' s =>
        callsWith 100 e [] (fun r _ => r == .error (.runtime .nil)) s &&
          callsWith 100 e' [] (fun r _ => r == .error (.host (.instantiate (thrownMessage 0)))) s &&
          finishesWith 100 e'' [] (fun end_ _ => end_ == .error (.message "disk full")) s) = true := by
    decide +kernel
  obtain ⟨s₀, host, opened, h⟩ := opensWith_spec checked
  obtain ⟨e, listing, s₁, loaded, h⟩ := loadsWith_spec h
  obtain ⟨e', listing', s₂, loaded', h⟩ := loadsWith_spec h
  obtain ⟨e'', listing'', s, loaded'', h⟩ := loadsWith_spec h
  rw [Bool.and_eq_true, Bool.and_eq_true] at h
  obtain ⟨r, s', called, raised⟩ := callsWith_spec h.1.1
  obtain ⟨r', s'', called', lost⟩ := callsWith_spec h.1.2
  obtain ⟨end_, u, runs, full⟩ := finishesWith_spec h.2
  obtain rfl := eq_of_beq raised
  obtain rfl := eq_of_beq lost
  obtain rfl := eq_of_beq full
  obtain ⟨classified, -⟩ :=
    errors_classified rfl opened (.load (.load (.load .start loaded) loaded') loaded'')
  obtain ⟨m, w, t, passes, enters, own, -, lifts⟩ := (classified 100 e []).runtime called
  exact ⟨s₀, host, e, listing, s₁, e', listing', s₂, e'', listing'', s, s', m, w, t, _, s'', u, opened, rfl, loaded,
    loaded', loaded'', called, passes, enters, own, lifts, called', ((classified 100 e' []).host called').1, runs,
    (classified 100 e'' []).trap runs rfl⟩

end Session

end GuestHost
