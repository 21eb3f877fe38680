import GuestHost.Proofs.Compiler.Transcripts
import GuestHost.Proofs.Machine.Allocation
import GuestHost.Proofs.Session.Guest

/-! What sessions ask of their compilers. Loads and calls, and the guest code they run,
consult the compiler in complete transcripts, whatever becomes of them. For guests it compiles what
they ask for from live buffers, as they ask for it. -/

namespace GuestHost

namespace Machine

/-- What guests have compiled of what they ask for: nothing until the definitions are complete. -/
def Environment.compiled (env : Environment) (events : Array Event) : List (Array UInt8) :=
  match env.links with
  | none => []
  | some _ => sources events

namespace Environment

variable {env : Environment}

theorem compiled_append (xs ys : Array Event) :
    env.compiled (xs ++ ys) = env.compiled xs ++ env.compiled ys := by
  unfold compiled
  split
  · rfl
  · exact sources_append xs ys

theorem compiled_eq_nil {events : Array Event} (unasked : sources events = []) : env.compiled events = [] := by
  unfold compiled
  split
  · rfl
  · exact unasked

theorem compiled_complete {links : Links} (complete : env.links = some links) (events : Array Event) :
    env.compiled events = sources events := by
  rw [compiled, complete]

end Environment

/-- Between the two stores guests had compiled what they asked for, in this order, and the compiler
was not consulted otherwise. -/
def Nested (env : Environment) (s s' : Store) : Prop :=
  ∃ new, s'.host.trace = s.host.trace ++ new ∧
    s.host.Consulted env.compiler ((env.compiled new).map env.options.nested) s'.host

namespace Nested

variable {env : Environment} {s s' : Store}

/-- Events of another concern, by which nothing is asked for. -/
theorem of_trace (new : Array Event) (trace : s'.host.trace = s.host.trace ++ new)
    (silent : compilations new = []) (unasked : sources new = []) : Nested env s s' := by
  refine ⟨new, trace, ?_⟩
  rw [Environment.compiled_eq_nil unasked]
  exact .of_trace new trace silent

theorem of_trace_eq (h : s'.host.trace = s.host.trace) : Nested env s s' :=
  of_trace #[] (by rw [h, Array.append_empty]) rfl rfl

theorem trans {a b c : Store} (h : Nested env a b) (h' : Nested env b c) : Nested env a c := by
  obtain ⟨new, trace, asked⟩ := h
  obtain ⟨new', trace', asked'⟩ := h'
  refine ⟨new ++ new', by rw [trace', trace, Array.append_assoc], ?_⟩
  rw [Environment.compiled_append, List.map_append]
  exact asked.trans asked'

end Nested

/-- A capability's own remarks are none of the compiler's concern. -/
theorem run_nested {env : Environment} {s : Store} {c : Capability} {f : List Val → Host → Response}
    {args : List Val} {h : Host} {r : Except Failure (List Val)} (ran : c.run f args s.host = some (r, h)) :
    Nested env s { s with host := h } := by
  obtain ⟨new, trace, remarks⟩ := Capability.run_trace ran
  refine .of_trace new.toArray trace (List.filter_eq_nil_iff.mpr fun e among => ?_)
    (sources_eq_nil fun e among => Event.source?_of_isRemark (remarks e among))
  have remark := remarks e among
  cases e <;> simp [Event.isRemark, Event.isCompilation] at remark ⊢

/-- A request for a module is an inquiry if it gets as far as the compiler. -/
theorem issued_nested (env : Environment) (s : Store) (buffer : Handle) :
    Nested env s { s with host := issued env s.host buffer } := by
  refine ⟨(ordering env s.host buffer).toArray, by rw [issued_eq], (ordering env s.host buffer).toArray,
    by rw [issued_eq], ?_⟩
  unfold ordering Environment.compiled
  cases env.links with
  | none => cases s.host.buffers.live[buffer]? <;> rfl
  | some links =>
      cases s.host.buffers.live[buffer]? with
      | none => rfl
      | some source =>
          have whole := env.compiler.compilations_transcript s.host.requests (env.options.nested source.data)
          have unasked := sources_transcript env.compiler s.host.requests (env.options.nested source.data)
          simp only [sources, compilations] at whole unasked ⊢
          simp [whole, unasked, Compiler.transcripts, Event.isCompilation]

theorem act_nested {env : Environment} {s s' : Store} {n n' : Nat}
    (h : Act env (s, n) (s', n')) : Nested env s s' := by
  cases h with
  | edit he => exact .of_trace_eq (by rw [he.host_eq])
  | allocate ha => exact .of_trace_eq (by rw [(allocate_eq_ok ha).host])
  | capability ran => exact run_nested ran
  | issue _ _ buffer => exact issued_nested env s buffer
  | answer => exact .of_trace #[_] Array.push_eq_append rfl rfl

end Machine

open Machine

/-- Every act of a run, and every use the host makes of buffers, keeps the account. -/
theorem nested_lasting (env : Environment) : Session.Lasting env (Nested env) where
  refl _ := .of_trace_eq rfl
  trans := .trans
  act := act_nested
  failed _ _ _ := .of_trace #[_] Array.push_eq_append rfl rfl
  entryless _ := .of_trace #[_] Array.push_eq_append rfl rfl
  insert s _ _ _ stored := by
    obtain ⟨-, -, rfl⟩ := Host.insert_eq_some.mp stored
    exact .of_trace_eq rfl
  take _ _ := .of_trace_eq rfl

/-! ## Sessions -/

theorem Session.launch_nested {env : Environment} {fuel : Nat} {links : Links} {s s' : Store}
    {payload : Array UInt8} {r : Except Error Nat}
    (agree : ∀ complete, env.links = some complete → complete = links)
    (launched : launch env fuel links s payload = some (r, s')) : Nested env s s' :=
  launch_keeps (nested_lasting env).toLasting (fun _ => .of_trace_eq rfl) agree launched

/-- The inquiry that opens a session. A standalone session makes none. -/
def Config.opening (c : Config) : List Inquiry :=
  if c.options.standalone then [] else [⟨.support c.options.optimize, c.format⟩]

namespace Session

theorem foldl_host {α : Type} {add : Store × Links → α → Store × Links}
    (keeps : ∀ a x, (add a x).1.host = a.1.host) (xs : List α) (a : Store × Links) :
    (xs.foldl add a).1.host = a.1.host := by
  induction xs generalizing a with
  | nil => rfl
  | cons x xs ih => rw [List.foldl_cons, ih, keeps]

theorem linkCapabilities_host (table : Registry Capability) :
    (linkCapabilities table).1.host = {} := by
  unfold linkCapabilities
  refine foldl_host ?_ table.toList ({}, .empty)
  intro a x
  rfl

/-- The session consults this compiler, for this configuration. -/
structure Serves (s : Session) (compiler : Compiler) (config : Config) : Prop where
  compiler : s.env.compiler = compiler
  options : s.env.options = config.options
  format : s.format = config.format
  complete : ∃ links, s.env.links = some links

theorem bare_serves (id : Nat) (compiler : Compiler) (config : Config) :
    (bare id compiler config).Serves compiler config :=
  ⟨rfl, rfl, rfl, _, rfl⟩

theorem bare_host (id : Nat) (compiler : Compiler) (config : Config) :
    (bare id compiler config).store.host = {} := by
  dsimp only [bare]
  exact linkCapabilities_host _

theorem withSupport_consulted {fuel : Nat} {s : Session} {compiler : Compiler} {config : Config}
    {r : Except Error Session} {h : Host} (serves : s.Serves compiler config)
    (opened : s.withSupport fuel = some (r, h)) :
    s.host.Consulted compiler [⟨.support config.options.optimize, config.format⟩] h ∧
      ∀ s', r = .ok s' → s'.host = h ∧ s'.Serves compiler config := by
  obtain ⟨rfl, options, format, -⟩ := serves
  have asked := s.host.compile_consulted s.env.compiler (.support s.env.options.optimize) s.format
  rw [← options, ← format]
  unfold withSupport at opened
  dsimp only at opened
  split at opened
  · cases opened
    exact ⟨asked, fun _ h => by cases h⟩
  · split at opened
    · cases opened
    · next hl =>
        obtain ⟨_, _, nested⟩ := launch_nested (fun _ h => by cases h) hl
        cases opened
        exact ⟨asked.trans nested, fun _ h => by cases h⟩
    · next hl =>
        obtain ⟨_, _, nested⟩ := launch_nested (fun _ h => by cases h) hl
        cases opened
        refine ⟨asked.trans nested, fun s' h => ?_⟩
        cases h
        exact ⟨rfl, rfl, options, format, _, rfl⟩

/-- Opening a session makes one inquiry, or none, even if it fails. -/
theorem openWith_consulted {fuel id : Nat} {compiler : Compiler} {config : Config}
    {r : Except Error Session} {h : Host} (opened : openWith fuel id compiler config = some (r, h)) :
    ({} : Host).Consulted compiler config.opening h ∧
      ∀ s, r = .ok s → s.host = h ∧ s.Serves compiler config := by
  have bare := bare_serves id compiler config
  have empty := bare_host id compiler config
  unfold openWith at opened
  unfold Config.opening
  dsimp only at opened
  split at opened
  · next standalone =>
      rw [if_pos standalone]
      cases opened
      refine ⟨.of_trace_eq (by rw [empty]), fun s h => ?_⟩
      cases h
      exact ⟨rfl, bare⟩
  · next standalone =>
      rw [if_neg standalone, ← empty]
      exact withSupport_consulted bare opened

/-- The inquiry that a script comes to. -/
def inquiry (config : Config) (source : Array UInt8) : Inquiry :=
  ⟨.script source config.options, config.format⟩

/-- A load makes an inquiry of its own; those of guests follow it. -/
theorem load_consulted {fuel : Nat} {s s' : Session} {compiler : Compiler} {config : Config}
    {source : Array UInt8} {r : Except Error (Entry × Option String)}
    (serves : s.Serves compiler config) (loaded : s.load fuel source = some (r, s')) :
    s'.Serves compiler config ∧ ∃ new, s'.host.trace = s.host.trace ++ new ∧ s.host.Consulted compiler
      (inquiry config source :: (sources new).map config.options.nested) s'.host := by
  obtain ⟨rfl, options, format, links, complete⟩ := serves
  have asked := s.host.compile_consulted s.env.compiler (.script source s.env.options) s.format
  have recorded := s.host.compile_trace s.env.compiler (.script source s.env.options) s.format
  rw [inquiry, ← options, ← format]
  cases load_ends loaded with
  | rejected compiled =>
      rw [compiled] at asked recorded
      refine ⟨⟨rfl, options, format, links, complete⟩, _, recorded, ?_⟩
      rw [sources_transcript]
      exact asked
  | failed compiled launched | entryless compiled launched | loaded compiled launched =>
      rw [compiled] at asked recorded
      obtain ⟨new, trace, nested⟩ := launch_nested (links_agree s.env) launched
      refine ⟨⟨rfl, options, format, links, complete⟩, _, (trace.trans (congrArg (· ++ new) recorded)).trans
        Array.append_assoc, ?_⟩
      rw [sources_append, sources_transcript, ← Environment.compiled_complete complete]
      exact asked.trans nested

/-- A call makes no inquiries but those of guests. -/
theorem call_consulted {fuel : Nat} {s s' : Session} {compiler : Compiler} {config : Config}
    {e : Entry} {args : List Value} {r : Except Error Returned}
    (serves : s.Serves compiler config) (called : s.call fuel e args = some (r, s')) :
    s'.Serves compiler config ∧ ∃ new, s'.host.trace = s.host.trace ++ new ∧
      s.host.Consulted compiler ((sources new).map config.options.nested) s'.host := by
  obtain ⟨rfl, options, format, links, complete⟩ := serves
  rw [← options]
  unfold call at called
  split at called
  · obtain ⟨⟨r', store⟩, ended, h⟩ := Option.map_eq_some_iff.mp called
    cases h
    obtain ⟨new, trace, nested⟩ := Boundary.call_keeps (b := ⟨s.env, fuel, e.support⟩)
      (nested_lasting _) e.func args ended
    refine ⟨⟨rfl, options, format, links, complete⟩, new, trace, ?_⟩
    rw [← Environment.compiled_complete complete]
    exact nested
  · cases called
    exact ⟨⟨rfl, options, format, links, complete⟩, #[], (Array.append_empty ..).symm, .of_trace_eq rfl⟩

end Session

end GuestHost
