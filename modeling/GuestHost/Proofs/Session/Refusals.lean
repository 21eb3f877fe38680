import GuestHost.Compiler.Builtin
import GuestHost.Proofs.Session.Carrying
import GuestHost.Proofs.Session.Shared

/-! Scripts that are refused. A load that fails before anything is brought to life leaves
nothing in the session but the record of what the compiler was asked, and nothing that
is asked of the session later can tell the difference. -/

namespace GuestHost

open Machine

/-! ## A past

What a session has recorded before matters to the number of requests alone, which tells
a compiler with a memory what it remembers. -/

/-- The compiler as it answers once it has answered `n` requests. -/
def Compiler.later (c : Compiler) (n : Nat) : Compiler where
  answer := c.answerAt n
  answerAt k := c.answerAt (n + k)

namespace Host

/-- The host with a past before what it recorded itself. -/
def after (past : Array Event) (h : Host) : Host := { h with trace := past ++ h.trace }

theorem record_after (past : Array Event) (h : Host) (e : Event) :
    (h.after past).record e = (h.record e).after past :=
  congrArg (fun trace => ({ h with trace } : Host)) Array.push_append

theorem foldl_touched_after (past : Array Event) (h : Host) (touches : List Touch) :
    touches.foldl (fun h t => h.record (.touched t)) (h.after past) =
      (touches.foldl (fun h t => h.record (.touched t)) h).after past := by
  induction touches generalizing h with
  | nil => rfl
  | cons t ts ih => rw [List.foldl_cons, List.foldl_cons, record_after, ih]

theorem compile_after (past : Array Event) (h : Host) (c : Compiler) (r : Request)
    (format : Option ListingFormat) :
    (h.after past).compile c r format =
      ((h.compile (c.later (past.countP Event.isRequest)) r format).1,
        (h.compile (c.later (past.countP Event.isRequest)) r format).2.after past) := by
  have number : (h.after past).requests = past.countP Event.isRequest + h.requests :=
    Array.countP_append
  simp only [compile, number, record_after, Compiler.later]
  split
  · rfl
  · rw [foldl_touched_after]

theorem run_after (past : Array Event) (h : Host) (c : Capability) (f : List Val → Host → Response)
    (args : List Val) :
    c.run f args (h.after past) = (c.run f args h).map fun (r, h) => (r, h.after past) := by
  simp [Capability.run, after, Array.append_assoc, Function.comp_def]

theorem insert_after (past : Array Event) (h : Host) (bytes : ByteArray) :
    (h.after past).insert bytes = (h.insert bytes).map fun (k, h) => (k, h.after past) := by
  rw [insert, insert, Option.map_map]
  rfl

theorem take_after (past : Array Event) (h : Host) (buffer : Handle) :
    (h.after past).take buffer = ((h.take buffer).1, (h.take buffer).2.after past) := rfl

end Host

/-- Everything that a session does is carried over to one with more of a past. -/
theorem carries_after (env : Environment) (past : Array Event) :
    Carries { env with compiler := env.compiler.later (past.countP Event.isRequest) } env
      (Host.after past) where
  record h e := h.record_after past e
  addInstance _ := rfl
  addNestedLoad h _ := ({ h with nestedLoads := h.nestedLoads + 1 } : Host).record_after past _
  links := rfl
  options := rfl
  take h buffer := h.take_after past buffer
  insert h bytes := h.insert_after past bytes
  capability c f args h := h.run_after past c f args
  compile h r format := h.compile_after past env.compiler r format

/-! ## Demands -/

/-- Something that is asked of an open session. -/
inductive Demand
  | load (source : Array UInt8)
  | call (entry : Entry) (args : List Value)

/-- What is answered. -/
inductive Reply
  | loaded (r : Except Error (Entry × Option String))
  | called (r : Except Error Returned)

namespace Session

def perform (fuel : Nat) (s : Session) : Demand → Option (Reply × Session)
  | .load source => (s.load fuel source).map fun (r, s) => (.loaded r, s)
  | .call e args => (s.call fuel e args).map fun (r, s) => (.called r, s)

/-- Meets demands one after the other. -/
def performAll (fuel : Nat) : List Demand → Session → Option (List Reply × Session)
  | [], s => some ([], s)
  | d :: ds, s =>
    match s.perform fuel d with
    | none => none
    | some (r, s) => (performAll fuel ds s).map fun (rs, s) => (r :: rs, s)

theorem perform_env {fuel : Nat} {s s' : Session} {d : Demand} {r : Reply}
    (performed : s.perform fuel d = some (r, s')) : s'.env = s.env := by
  cases d with
  | load source =>
      obtain ⟨⟨r, t⟩, loaded, same⟩ := Option.map_eq_some_iff.mp performed
      cases same
      exact (load_continues loaded).env
  | call e args =>
      obtain ⟨⟨r, t⟩, called, same⟩ := Option.map_eq_some_iff.mp performed
      cases same
      exact (call_continues called).env

section

variable {F : Host → Host} {env' : Environment}

theorem perform_carried (fuel : Nat) {s : Session} (h : Carries s.env env' F) (d : Demand) :
    (s.moved env' F).perform fuel d =
      (s.perform fuel d).map fun (r, t) => (r, t.moved env' F) := by
  cases d with
  | load source =>
      rw [perform, perform, load_carried h]
      cases s.load fuel source <;> rfl
  | call e args =>
      rw [perform, perform, call_carried h]
      cases s.call fuel e args <;> rfl

theorem performAll_carried (fuel : Nat) (ds : List Demand) {s : Session} (h : Carries s.env env' F) :
    (s.moved env' F).performAll fuel ds =
      (s.performAll fuel ds).map fun (rs, t) => (rs, t.moved env' F) := by
  induction ds generalizing s with
  | nil => rfl
  | cons d ds ih =>
      rw [performAll, performAll, perform_carried fuel h]
      cases performed : s.perform fuel d with
      | none => rfl
      | some p =>
          obtain ⟨r, t⟩ := p
          rw [← perform_env performed] at h
          simp only [Option.map_some, ih h]
          cases t.performAll fuel ds <;> rfl

end

/-! ## Insertions -/

/-- The session with another compiler. -/
def consulting (c : Compiler) (s : Session) : Session := { s with env := { s.env with compiler := c } }

/-- The session with more events in its record, after the first `n`. -/
def inserting (n : Nat) (events : Array Event) (s : Session) : Session :=
  { s with store := s.store.mapHost fun h =>
    { h with trace := h.trace.extract 0 n ++ events ++ h.trace.extract n h.trace.size } }

theorem extract_past (past own : Array Event) :
    (past ++ own).extract 0 past.size = past ∧
      (past ++ own).extract past.size (past ++ own).size = own := by
  simp [Array.extract_append]

/-- With a past, what is inserted after it comes before everything else. -/
theorem inserting_moved (t : Session) (env env' : Environment) (past events : Array Event)
    (same : { env with compiler := env'.compiler } = env') :
    ((t.moved env (Host.after past)).consulting env'.compiler).inserting past.size events =
      t.moved env' (Host.after (past ++ events)) := by
  obtain ⟨before, own⟩ := extract_past past t.host.trace
  have trace : (past ++ t.host.trace).extract 0 past.size ++ events ++
      (past ++ t.host.trace).extract past.size (past ++ t.host.trace).size =
        past ++ events ++ t.host.trace := by
    rw [before, own]
  simp only [inserting, consulting, moved, same, Store.mapHost, Host.after]
  rw [← host, trace]

/-- Nothing that is asked of a session later depends on what it has recorded, as long as
its compiler goes on alike. -/
theorem performAll_inserting (fuel : Nat) (ds : List Demand) (s : Session) (events : Array Event)
    {c : Compiler} (alike : ∀ k r, c.answerAt (s.host.requests + k) r =
      s.env.compiler.answerAt (s.host.requests + events.countP Event.isRequest + k) r) :
    (s.inserting s.host.trace.size events).performAll fuel ds =
      ((s.consulting c).performAll fuel ds).map fun (rs, t) =>
        (rs, (t.consulting s.env.compiler).inserting s.host.trace.size events) := by
  let past := s.host.trace
  let fresh : Session :=
    { s with
      env := { s.env with compiler := s.env.compiler.later ((past ++ events).countP Event.isRequest) }
      store := s.store.mapHost fun h => { h with trace := #[] } }
  have later : c.later (past.countP Event.isRequest) =
      s.env.compiler.later ((past ++ events).countP Event.isRequest) := by
    rw [Array.countP_append]
    have answers := funext fun k => funext fun r => alike k r
    exact congrArg₂ Compiler.mk (congrFun answers 0) answers
  have carried := carries_after { s.env with compiler := c } past
  rw [later] at carried
  have with_events : s.inserting past.size events = fresh.moved s.env (Host.after (past ++ events)) := by
    simp [inserting, moved, fresh, past, host, Store.mapHost, Host.after]
  have without : s.consulting c = fresh.moved { s.env with compiler := c } (Host.after past) := by
    simp [consulting, moved, fresh, past, host, Store.mapHost, Host.after]
  rw [with_events, without, performAll_carried fuel ds (carries_after s.env (past ++ events)),
    performAll_carried fuel ds carried, Option.map_map]
  congr 1
  funext p
  exact congrArg (Prod.mk p.1) (inserting_moved p.2 _ _ past events rfl).symm

/-! ## Refusals -/

end Session

/-- A load that fails in this way fails before anything is brought to life. -/
def Error.isRefusal : Error → Bool
  | .compile _ | .validation _ | .link _ | .internal _ => true
  | _ => false

theorem instantiate_refused {s s' : Store} {links : Links} {payload : Array UInt8} {e : Error}
    (refused : s.instantiate links payload = (.error e, s')) (early : e.isRefusal = true) : s' = s := by
  rcases instantiate_error refused with ⟨-, same⟩ | ⟨t, rfl⟩
  · exact same
  · cases early

namespace Session

theorem launch_refused {env : Environment} {fuel : Nat} {links : Links} {s s' : Store}
    {payload : Array UInt8} {e : Error} (refused : launch env fuel links s payload = some (.error e, s'))
    (early : e.isRefusal = true) : s' = s := by
  cases launch_ends refused with
  | refused made => exact instantiate_refused made early
  | failed => cases early

/-- What a script's compilation adds to the record of a session. -/
def asked (s : Session) (source : Array UInt8) : Array Event :=
  (s.env.compiler.transcript s.host.requests ⟨.script source s.env.options, s.format⟩).toArray

theorem load_refused {fuel : Nat} {s s' : Session} {source : Array UInt8} {e : Error}
    (refused : s.load fuel source = some (.error e, s')) (early : e.isRefusal = true) :
    s' = s.inserting s.host.trace.size (s.asked source) := by
  have compiled : { s with store := { s.store with host :=
      (s.host.compile s.env.compiler (.script source s.env.options) s.format).2 } } =
        s.inserting s.host.trace.size (s.asked source) := by
    rw [Host.compile_host]
    simp [inserting, host, asked, Store.mapHost]
  cases load_ends refused with
  | rejected host =>
      rw [← compiled, host]
  | failed host launched =>
      rw [launch_refused launched early, ← compiled, host]
  | entryless => cases early

/-! ## Source maps -/

/-- The source map of the script that was loaded last, if it has one, in a session that was
opened as `s₀`. -/
inductive Latest (s₀ : Session) : Option String → Session → Prop
  | opened : Latest s₀ none s₀
  | loaded {m : Option String} {s s' : Session} {fuel : Nat} {source : Array UInt8}
      {r : Entry × Option String} {o : CompilerOutput} (earlier : Latest s₀ m s)
      (made : s.env.compiler.answerAt s.host.requests (.script source s.env.options) = .ok o)
      (loaded : s.load fuel source = some (.ok r, s')) : Latest s₀ o.sourceMap s'
  | failed {m : Option String} {s s' : Session} {fuel : Nat} {source : Array UInt8} {e : Error}
      (earlier : Latest s₀ m s) (failed : s.load fuel source = some (.error e, s')) : Latest s₀ m s'
  | called {m : Option String} {s s' : Session} {fuel : Nat} {e : Entry} {args : List Value}
      {r : Except Error Returned} (earlier : Latest s₀ m s)
      (called : s.call fuel e args = some (r, s')) : Latest s₀ m s'

/-- What a compiler made of a source was kept if it was not rejected. -/
theorem compile_made {h : Host} {c : Compiler} {r : Request} {format : Option ListingFormat}
    {d : Decoded} (decoded : (h.compile c r format).1 = .ok d) :
    ∃ o, c.answerAt h.requests r = .ok o ∧ d.sourceMap = o.sourceMap := by
  unfold Host.compile at decoded
  dsimp only at decoded
  split at decoded
  · cases decoded
  · next o made =>
      refine ⟨o, made, ?_⟩
      obtain ⟨error, payload, listing, sourceMap⟩ := o
      cases error with
      | some text => cases decoded
      | none =>
          cases format <;>
          · cases decoded
            rfl

theorem load_made {fuel : Nat} {s s' : Session} {source : Array UInt8} {r : Entry × Option String}
    (loaded : s.load fuel source = some (.ok r, s')) :
    ∃ o, s.env.compiler.answerAt s.host.requests (.script source s.env.options) = .ok o ∧
      s'.sourceMap = o.sourceMap := by
  cases load_ends loaded with
  | loaded compiled =>
      obtain ⟨o, made, map⟩ := compile_made (congrArg Prod.fst compiled)
      exact ⟨o, made, map⟩

theorem load_failed_sourceMap {fuel : Nat} {s s' : Session} {source : Array UInt8} {e : Error}
    (failed : s.load fuel source = some (.error e, s')) : s'.sourceMap = s.sourceMap := by
  cases load_ends failed with
  | rejected | failed | entryless => rfl

theorem call_sourceMap {fuel : Nat} {s s' : Session} {e : Entry} {args : List Value}
    {r : Except Error Returned} (called : s.call fuel e args = some (r, s')) :
    s'.sourceMap = s.sourceMap := by
  unfold call at called
  split at called
  · obtain ⟨p, _, same⟩ := Option.map_eq_some_iff.mp called
    cases same
    rfl
  · cases called
    rfl

/-- The support module's own source map is not kept. -/
theorem openWith_sourceMap {fuel id : Nat} {compiler : Compiler} {config : Config} {s : Session}
    {host : Host} (opened : openWith fuel id compiler config = some (.ok s, host)) :
    s.sourceMap = none := by
  cases (openWith_ends opened).1 with
  | alone | shared => rfl

theorem Latest.eq {s₀ s : Session} {m : Option String} (fresh : s₀.sourceMap = none)
    (latest : Latest s₀ m s) : m = s.sourceMap := by
  induction latest with
  | opened => exact fresh.symm
  | loaded _ made loaded _ =>
      obtain ⟨o, made', map⟩ := load_made loaded
      rw [made] at made'
      cases made'
      exact map.symm
  | failed _ failed ih => rw [ih, load_failed_sourceMap failed]
  | called _ called ih => rw [ih, call_sourceMap called]

theorem Reached.latest {s₀ s : Session} (reached : Reached s₀ s) : ∃ m, Latest s₀ m s := by
  induction reached with
  | start => exact ⟨none, .opened⟩
  | @load s₁ s₂ fuel source r _ loaded ih =>
      obtain ⟨m, latest⟩ := ih
      cases r with
      | error e => exact ⟨m, latest.failed loaded⟩
      | ok r =>
          obtain ⟨o, made, _⟩ := load_made loaded
          exact ⟨o.sourceMap, latest.loaded made loaded⟩
  | call _ called ih =>
      obtain ⟨m, latest⟩ := ih
      exact ⟨m, latest.called called⟩

/-! ## Sessions -/

/-- A script that is refused leaves its session as it was, but for the record of what the
compiler was asked about it. Whatever is asked of the session afterwards is answered, and
done, as if that script had never been there, by a compiler `c` that would not have seen
it either. The source map is that of the script that was loaded last. -/
theorem refused_load_leaves {fuel id : Nat} {compiler : Compiler} {config : Config} {s₀ s : Session}
    {host : Host} (opened : openWith fuel id compiler config = some (.ok s₀, host))
    (reached : Reached s₀ s) :
    (Latest s₀ s.sourceMap s ∧ ∀ m, Latest s₀ m s → m = s.sourceMap) ∧
      ∀ {fuel source e s'}, s.load fuel source = some (.error e, s') → e.isRefusal = true →
        s' = s.inserting s.host.trace.size (s.asked source) ∧
          ∀ c : Compiler,
            (∀ k r, c.answerAt (s.host.requests + k) r =
              s.env.compiler.answerAt (s.host.requests + 1 + k) r) →
            ∀ fuel demands,
              s'.performAll fuel demands =
                ((s.consulting c).performAll fuel demands).map fun (replies, t) =>
                  (replies, (t.consulting s.env.compiler).inserting s.host.trace.size (s.asked source)) := by
  have fresh := openWith_sourceMap opened
  obtain ⟨m, latest⟩ := reached.latest
  have same := latest.eq fresh
  refine ⟨⟨same ▸ latest, fun _ => Latest.eq fresh⟩, ?_⟩
  intro fuel source e s' refused early
  have left := load_refused refused early
  refine ⟨left, fun c alike fuel demands => ?_⟩
  have one : (s.asked source).countP Event.isRequest = 1 := by
    rw [asked, List.countP_toArray]
    exact s.env.compiler.transcript_requests _ _
  rw [left]
  exact performAll_inserting fuel demands s _ (by rwa [one])

/-- Whether a script is refused for this reason. -/
def refuses (s : Session) (refusal : Array UInt8 × Error) : Bool :=
  match s.load 100 refusal.1 with
  | some (.error e, _) => e == refusal.2
  | _ => false

theorem refuses_spec {s : Session} {refusal : Array UInt8 × Error} (h : s.refuses refusal = true) :
    ∃ s', s.load 100 refusal.1 = some (.error refusal.2, s') := by
  unfold refuses at h
  split at h
  · next e s' refused =>
      cases beq_iff_eq.mp h
      exact ⟨s', refused⟩
  · cases h

/-- A module that imports what nobody defines. -/
def wantingModule : Wasm.Module where
  types := [⟨[], []⟩]
  imports := [⟨"nowhere", "f", .func 0⟩]

/-- A text that is no module, and a module that cannot be linked. -/
def refusals : List (Array UInt8 × Error) :=
  [(#[98], .compile "malformed module text"),
    ((Wasm.Binary.module wantingModule).toArray, .link "nowhere::f")]

set_option maxRecDepth 100000 in
/-- A script that is refused is refused again, and alike. -/
theorem malformed_refused : ∃ s host,
    openWith 100 0 Builtin.compiler {} = some (.ok s, host) ∧ s.sourceMap = none ∧
      ∀ p ∈ refusals, ∃ s', s.load 100 p.1 = some (.error p.2, s') ∧
        s' = s.inserting s.host.trace.size (s.asked p.1) ∧
        s'.performAll 100 [.load p.1] =
          ((s.consulting s.env.compiler).performAll 100 [.load p.1]).map fun (replies, t) =>
            (replies, (t.consulting s.env.compiler).inserting s.host.trace.size (s.asked p.1)) := by
  have checked : opensWith (openWith 100 0 Builtin.compiler {}) (fun s => refusals.all s.refuses) = true := by
    decide +kernel
  have early : ∀ p ∈ refusals, p.2.isRefusal = true := by decide
  obtain ⟨s, host, opened, refused⟩ := opensWith_spec checked
  obtain ⟨⟨_, map⟩, leaves⟩ := refused_load_leaves opened .start
  have builtin : s.env.compiler = Builtin.compiler := ((openWith_consulted opened).2 s rfl).2.compiler
  refine ⟨s, host, opened, (map none .opened).symm, fun p among => ?_⟩
  obtain ⟨s', refused⟩ := refuses_spec (List.all_eq_true.mp refused p among)
  obtain ⟨left, later⟩ := leaves refused (early p among)
  refine ⟨s', refused, left, later _ ?_ 100 _⟩
  rw [builtin]
  exact fun _ _ => rfl

end Session

end GuestHost
