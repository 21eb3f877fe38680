import GuestHost.Proofs.Machine.Dealings
import GuestHost.Proofs.Session.Consultations
import GuestHost.Proofs.Session.FailedLoads
import GuestHost.Proofs.Session.Shared

/-! The counters of a session. Instances are counted when they are complete, also those of
modules without an entry, and loads when guests are handed entries; the record of the session
tells both numbers, and so do the answers to its own loads. -/

namespace GuestHost

open Machine

/-- A guest is handed an entry. -/
def Event.isHandover (e : Event) : Bool := e.handed?.isSome

theorem countP_isOutcome (events : List Event) :
    events.countP Event.isOutcome = events.countP Event.isHandover + events.countP Event.isEntryless := by
  induction events with
  | nil => rfl
  | cons e es ih =>
      rw [List.countP_cons, List.countP_cons, List.countP_cons, ih]
      cases e <;> simp [Event.isOutcome, Event.isHandover, Event.isEntryless, Event.handed?] <;> omega

theorem Event.isOutcome_of_isLoad {e : Event} (h : e.isLoad = false) : e.isOutcome = false := by
  cases e with
  | loadIssued | loadReturned | loadFailed => cases h
  | requested | touched | wrote | noted => rfl

namespace Host

/-- Between the two hosts the counters agree with the record, but for `made` instances that no
guest asked for. -/
def Tallied (made : Nat) (h h' : Host) : Prop :=
  ∃ new : List Event, h'.trace = h.trace ++ new.toArray ∧
    h'.nestedLoads = h.nestedLoads + new.countP Event.isHandover ∧
    h'.instances = h.instances + made + new.countP Event.isHandover + new.countP Event.isEntryless

namespace Tallied

variable {a b c : Host} {m n : Nat}

theorem of_quiet (new : List Event) (trace : b.trace = a.trace ++ new.toArray)
    (quiet : ∀ e ∈ new, e.isOutcome = false) (loads : b.nestedLoads = a.nestedLoads)
    (instances : b.instances = a.instances) : a.Tallied 0 b := by
  have none : new.countP Event.isOutcome = 0 :=
    List.countP_eq_zero.mpr fun e among => by simp [quiet e among]
  rw [countP_isOutcome] at none
  exact ⟨new, trace, by omega, by omega⟩

theorem of_eq (trace : b.trace = a.trace) (loads : b.nestedLoads = a.nestedLoads)
    (instances : b.instances = a.instances) : a.Tallied 0 b :=
  of_quiet [] (by rw [trace]; rfl) (by simp) loads instances

theorem refl (h : Host) : h.Tallied 0 h := of_eq rfl rfl rfl

theorem trans (h : a.Tallied m b) (h' : b.Tallied n c) : a.Tallied (m + n) c := by
  obtain ⟨new, trace, loads, instances⟩ := h
  obtain ⟨new', trace', loads', instances'⟩ := h'
  refine ⟨new ++ new', by simp [trace', trace], ?_, ?_⟩
  · rw [List.countP_append]
    omega
  · rw [List.countP_append, List.countP_append]
    omega

/-- One event is recorded and counted for what it is. -/
theorem record (e : Event) (loads : b.nestedLoads = a.nestedLoads + [e].countP Event.isHandover)
    (instances : b.instances =
      a.instances + [e].countP Event.isHandover + [e].countP Event.isEntryless)
    (trace : b.trace = a.trace.push e) : a.Tallied 0 b :=
  ⟨[e], by rw [trace, Array.push_eq_append], loads, instances⟩

theorem compile (h : Host) (c : Compiler) (r : Request) (format : Option ListingFormat) :
    h.Tallied 0 (h.compile c r format).2 := by
  rw [compile_host]
  exact of_quiet _ rfl (fun e among => Event.isOutcome_of_isLoad
    (Event.isLoad_of_isCompilation (c.isCompilation_of_mem among))) rfl rfl

end Tallied

end Host

/-! ## Runs -/

theorem act_tallied {env : Environment} {s s' : Store} {n n' : Nat} (h : Act env (s, n) (s', n')) :
    s.host.Tallied 0 s'.host := by
  cases h with
  | edit he => rw [he.host_eq]; exact .refl _
  | allocate ha => rw [(allocate_eq_ok ha).host]; exact .refl _
  | capability ran =>
      obtain ⟨new, trace, remarks⟩ := Capability.run_trace ran
      obtain ⟨_, _, -, -, rfl⟩ := Capability.run_eq_some.mp ran
      exact .of_quiet new trace
        (fun e among => Event.isOutcome_of_isLoad (Event.isLoad_of_isRemark (remarks e among))) rfl rfl
  | issue _ _ buffer =>
      obtain ⟨asked, whole, compilation⟩ := ordering_asked env s.host buffer
      rw [issued_eq, whole]
      refine .of_quiet _ rfl (List.forall_mem_cons.mpr ⟨rfl, fun e among => ?_⟩) rfl rfl
      exact Event.isOutcome_of_isLoad (Event.isLoad_of_isCompilation (compilation e among))
  | answer _ _ func => exact .record (.loadReturned func) rfl rfl rfl

/-- Nothing that guest code does, and no failure, upsets the counters. -/
theorem tallied_lasting (env : Environment) :
    Session.Lasting env fun s s' => s.host.Tallied 0 s'.host where
  refl s := .refl s.host
  trans h h' := h.trans h'
  act := act_tallied
  failed s cause other := by
    have not : [Event.loadFailed cause].countP Event.isEntryless = 0 := by
      simpa [Event.isEntryless] using other
    exact .record (.loadFailed cause) rfl (by rw [not]; rfl) rfl
  entryless s := .record (.loadFailed (.missingExport entryName)) rfl rfl rfl
  insert s _ _ _ stored := by
    obtain ⟨-, -, rfl⟩ := Host.insert_eq_some.mp stored
    exact .of_eq rfl rfl rfl
  take s buffer := .of_eq rfl rfl rfl

/-- Every instance is counted that a step of a run completes, and every entry that one hands
to a guest. -/
theorem run_counts {env : Environment} {n : Nat} {m : State} {r : Except Failure (List Val)} {s : Store}
    (ended : run env n m = some (r, s)) :
    s.host.instances = m.store.host.instances + (passed env n m).countP (fun m => (m.completed? env).isSome) ∧
      s.host.nestedLoads = m.store.host.nestedLoads + (passed env n m).countP fun m => (m.answer? env).isSome := by
  obtain ⟨new, trace, outcomes⟩ := run_outcomes ended
  obtain ⟨new', trace', loads, instances⟩ := (tallied_lasting env).toLasting.run ended
  obtain rfl : new = new' := (since_eq trace).symm.trans (since_eq trace')
  constructor
  · rw [instances, Nat.add_zero, Nat.add_assoc, ← countP_isOutcome, List.countP_eq_length_filter, outcomes,
      List.length_filterMap_eq_countP]
    congr 2
    funext m
    rw [State.outcome?, Option.isSome_map]
  · have among : new.countP Event.isHandover = (new.filter Event.isOutcome).countP Event.isHandover := by
      rw [List.countP_filter]
      congr 1
      funext e
      cases e <;> rfl
    rw [loads, among, outcomes, List.countP_filterMap]
    congr 2
    funext m
    rw [← State.outcome?_handed]
    cases m.outcome? env <;> rfl

namespace Session

/-- The answer goes with an instance that counts: the script was loaded, or lacks an entry. -/
def countsInstance {α : Type} : Except Error α → Bool
  | .ok _ => true
  | .error e => e == .missingExport entryName

theorem countsInstance_of_stopsLoad {α : Type} {e : Error} (early : e.stopsLoad = true) :
    countsInstance (.error e : Except Error α) = false := by
  refine beq_eq_false_iff_ne.mpr ?_
  rintro rfl
  cases early

/-! ## Loads and calls -/

variable {fuel : Nat}

theorem launch_tallied {env : Environment} {links : Links} {s s' : Store} {payload : Array UInt8}
    {r : Except Error Nat} (agree : ∀ complete, env.links = some complete → complete = links)
    (ended : launch env fuel links s payload = some (r, s')) :
    s.host.Tallied (countsInstance r).toNat s'.host := by
  have lasting := (tallied_lasting env).toLasting
  have begun := lasting.instantiate s payload agree
  have counted (t : Store) : t.host.Tallied 1 (t.mapHost Host.addInstance).host :=
    ⟨[], by simp [Store.mapHost, Host.addInstance], rfl, rfl⟩
  cases launch_ends ended with
  | refused made =>
      rw [made] at begun
      rw [countsInstance_of_stopsLoad (instantiate_stopsLoad made)]
      exact begun
  | still made =>
      rw [made] at begun
      exact begun.trans (counted _)
  | started made ran =>
      rw [made] at begun
      exact (begun.trans (lasting.invoke ran)).trans (counted _)
  | failed made ran =>
      rw [made] at begun
      exact begun.trans (lasting.invoke ran)

theorem load_tallied {s s' : Session} {source : Array UInt8} {r : Except Error (Entry × Option String)}
    (loaded : s.load fuel source = some (r, s')) :
    s.host.Tallied (countsInstance r).toNat s'.host := by
  have asked := Host.Tallied.compile s.host s.env.compiler (.script source s.env.options) s.format
  cases load_ends loaded with
  | rejected compiled =>
      rw [compiled] at asked
      rw [countsInstance_of_stopsLoad (Host.compile_stopsLoad (congrArg Prod.fst compiled))]
      exact asked
  | failed compiled launched | entryless compiled launched | loaded compiled launched =>
      rw [compiled] at asked
      have made := asked.trans (launch_tallied (links_agree s.env) launched)
      rwa [Nat.zero_add] at made

theorem call_tallied {s s' : Session} {e : Entry} {args : List Value} {r : Except Error Returned}
    (called : s.call fuel e args = some (r, s')) : s.host.Tallied 0 s'.host :=
  call_store_keeps (tallied_lasting s.env) called

theorem openWith_tallied {id : Nat} {compiler : Compiler} {config : Config} {s : Session} {host : Host}
    (opened : openWith fuel id compiler config = some (.ok s, host)) :
    ({} : Host).Tallied (!config.options.standalone).toNat s.host := by
  have empty := bare_host id compiler config
  cases (openWith_ends opened).1 with
  | alone standalone =>
      change ({} : Host).Tallied _ (bare id compiler config).store.host
      rw [standalone, empty]
      exact .refl _
  | shared shares _ compiled launched =>
      have asked := Host.Tallied.compile {} compiler (.support config.options.optimize) config.format
      rw [empty] at compiled
      rw [compiled] at asked
      rw [shares]
      exact asked.trans (launch_tallied (fun _ h => by cases h) launched)

/-! ## Sessions -/

/-- What loads were answered, in order, in a session that was opened as `s₀`, while it was also
called. -/
inductive Answered (s₀ : Session) : List (Except Error (Entry × Option String)) → Session → Prop
  | opened : Answered s₀ [] s₀
  | load {rs : List (Except Error (Entry × Option String))} {s s' : Session} {fuel : Nat}
      {source : Array UInt8} {r : Except Error (Entry × Option String)} (earlier : Answered s₀ rs s)
      (loaded : s.load fuel source = some (r, s')) : Answered s₀ (rs ++ [r]) s'
  | call {rs : List (Except Error (Entry × Option String))} {s s' : Session} {fuel : Nat} {e : Entry}
      {args : List Value} {r : Except Error Returned} (earlier : Answered s₀ rs s)
      (called : s.call fuel e args = some (r, s')) : Answered s₀ rs s'

theorem Answered.tallied {s₀ s : Session} {rs : List (Except Error (Entry × Option String))}
    (answered : Answered s₀ rs s) : s₀.host.Tallied (rs.countP countsInstance) s.host := by
  induction answered with
  | opened => exact .refl _
  | @load rs _ _ _ _ r _ loaded ih =>
      have one : [r].countP countsInstance = (countsInstance r).toNat := by
        cases h : countsInstance r <;> simp [h]
      rw [List.countP_append, one]
      exact ih.trans (load_tallied loaded)
  | call _ called ih => exact ih.trans (call_tallied called)

/-- The counters of a session, whatever was loaded and called and whatever came of it. Loads
are counted when a guest is handed an entry. Instances are that of the support module, those of
the scripts that were loaded or lack an entry, and those of the modules that guests were handed
an entry of or that lack one. What a load or a call adds is what it is answered and what it
records; other failures add nothing of their own. At every moment of every run the counters
agree with the record, and with the states that the run went through. -/
theorem instances_accounted {id : Nat} {compiler : Compiler} {config : Config} {s₀ s : Session} {host : Host}
    {rs : List (Except Error (Entry × Option String))}
    (opened : openWith fuel id compiler config = some (.ok s₀, host)) (answered : Answered s₀ rs s) :
    s.host.nestedLoads = s.host.trace.countP Event.isHandover ∧
    s.host.instances = (!config.options.standalone).toNat + rs.countP countsInstance + s.host.nestedLoads +
      s.host.trace.countP Event.isEntryless ∧
    (∀ fuel source r s', s.load fuel source = some (r, s') →
      s.host.Tallied (countsInstance r).toNat s'.host) ∧
    (∀ fuel e args r s', s.call fuel e args = some (r, s') → s.host.Tallied 0 s'.host) ∧
    (∀ m m', Reaches s.env m m' → m.store.host.Tallied 0 m'.store.host) ∧
    (∀ n m r t, run s.env n m = some (r, t) →
      t.host.instances = m.store.host.instances +
        (passed s.env n m).countP (fun m => (m.completed? s.env).isSome) ∧
      t.host.nestedLoads = m.store.host.nestedLoads +
        (passed s.env n m).countP fun m => (m.answer? s.env).isSome) ∧
    ∀ m a, m.answer? s.env = some a → ∃ t ws, step s.env m = .next ⟨t, .leave [.ref (some a)], ws⟩ := by
  obtain ⟨new, trace, loads, instances⟩ := (openWith_tallied opened).trans answered.tallied
  have whole : s.host.trace = new.toArray := by simpa using trace
  have handovers : s.host.nestedLoads = s.host.trace.countP Event.isHandover := by
    rw [loads, whole, List.countP_toArray]
    exact Nat.zero_add _
  refine ⟨handovers, ?_, fun _ _ _ _ => load_tallied, fun _ _ _ _ _ => call_tallied, fun m m' steps => ?_,
    fun n m r t => run_counts, fun m a => step_answer⟩
  · have none : ({} : Host).instances = 0 := rfl
    rw [whole, List.countP_toArray] at handovers ⊢
    omega
  · exact (tallied_lasting s.env).toLasting.reached steps

/-- A compiler that makes of 1 a module whose start function loads 2, and of everything else a
script that loads 1. -/
def chaining : Compiler where
  answer
    | .support optimize => Builtin.compiler.answer (.support optimize)
    | .script source _ =>
      .ok { payload := (Wasm.Binary.module (loader (if source = #[1] then 2 else 1) (source = #[1]))).toArray }

/-- How many instances a session counts, and how many loads of guests. -/
def counters (s : Session) : Nat × Nat := (s.host.instances, s.host.nestedLoads)

set_option maxRecDepth 100000 in
/-- A script loads a module that is handed an entry at its start but has none itself. The
support module, the script and both of these modules count, and so does the one load. -/
theorem chaining_counted : ∃ s₀ host e listing s₁ r s,
    openWith 100 0 chaining {} = some (.ok s₀, host) ∧ s₀.load 100 #[0] = some (.ok (e, listing), s₁) ∧
      s₁.call 100 e [] = some (r, s) ∧ s.counters = (4, 1) ∧
      s.host.nestedLoads = s.host.trace.countP Event.isHandover ∧
      s.host.instances = 2 + s.host.nestedLoads + s.host.trace.countP Event.isEntryless := by
  have checked : opensWith (openWith 100 0 chaining {}) (loadsWith 100 #[0] fun e =>
      callsWith 100 e [] fun _ s => s.counters == (4, 1)) = true := by
    decide +kernel
  obtain ⟨s₀, host, opened, h⟩ := opensWith_spec checked
  obtain ⟨e, listing, s₁, loaded, h⟩ := loadsWith_spec h
  obtain ⟨r, s, called, h⟩ := callsWith_spec h
  have answered : Answered s₀ [.ok (e, listing)] s := (Answered.opened.load loaded).call called
  obtain ⟨loads, instances, _⟩ := instances_accounted opened answered
  exact ⟨s₀, host, e, listing, s₁, r, s, opened, loaded, called, beq_iff_eq.mp h, loads, instances⟩

end Session

end GuestHost
