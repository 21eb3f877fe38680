import GuestHost.Proofs.Machine.Abstinence
import GuestHost.Proofs.Machine.Dealings
import GuestHost.Proofs.Machine.Orders
import GuestHost.Proofs.Machine.Separation
import GuestHost.Proofs.Session.FailedLoads
import GuestHost.Proofs.Session.Imports
import GuestHost.Proofs.Session.RoundTrip

/-! What guests load. The compiler is given the contents of buffers as guests ask for modules,
in that order, and each guest that is answered gets the entry of an instance that shares with
others what its module imports, and nothing else. -/

namespace GuestHost

open Machine
open Wasm (Module)

/-! ## What the compiler is given -/

/-- What the compiler is asked. -/
def Event.request? : Event → Option Request
  | .requested r => some r
  | _ => none

theorem Event.request?_of_silent {e : Event} (h : e.isCompilation = false) : e.request? = none := by
  cases e with
  | requested | touched => cases h
  | wrote | noted | loadIssued | loadReturned | loadFailed => rfl

/-- Requests are found in the log alone. -/
theorem filterMap_compilations (events : Array Event) :
    (compilations events).filterMap Event.request? = events.toList.filterMap Event.request? := by
  rw [compilations, List.filterMap_filter]
  congr 1
  funext e
  cases compilation : e.isCompilation with
  | true => exact if_pos rfl
  | false => exact (Event.request?_of_silent compilation).symm

theorem filterMap_transcripts (c : Compiler) (n : Nat) (is : List Inquiry) :
    (c.transcripts n is).filterMap Event.request? = is.map Inquiry.request := by
  induction is generalizing n with
  | nil => rfl
  | cons i is ih =>
      have own : (c.transcript n i).filterMap Event.request? = [i.request] := by
        unfold Compiler.transcript
        split
        · rfl
        · next o _ =>
            have silent : ∀ e ∈ (o.touches i.format).map Event.touched, e.request? = none := by
              intro e among
              obtain ⟨t, _, rfl⟩ := List.mem_map.mp among
              rfl
            exact congrArg (i.request :: ·) (List.filterMap_eq_nil_iff.mpr silent)
      rw [Compiler.transcripts, List.filterMap_append, own, ih]
      rfl

/-- Between the two hosts the compiler was asked for scripts: `own` first, and then whatever
guests asked for from live buffers, as they did. -/
def Host.Scripted (env : Environment) (own : List (Array UInt8)) (h h' : Host) : Prop :=
  ∃ new : List Event, h'.trace = h.trace ++ new.toArray ∧
    new.filterMap Event.request? =
      (own ++ new.filterMap Event.source?).map fun source => .script source env.options

/-- The scripts that inquiries are for are asked for. -/
theorem Host.Consulted.scripted {env : Environment} {own : List (Array UInt8)} {h h' : Host} {new : Array Event}
    {is : List Inquiry} (asked : h.Consulted env.compiler is h') (trace : h'.trace = h.trace ++ new)
    (scripts : is.map Inquiry.request = (own ++ sources new).map fun source => .script source env.options) :
    h.Scripted env own h' := by
  obtain ⟨new', trace', log⟩ := asked
  obtain rfl := (Array.append_right_inj _).mp (trace.symm.trans trace')
  refine ⟨new.toList, trace, ?_⟩
  rw [← filterMap_compilations, log, filterMap_transcripts, scripts]
  rfl

theorem map_request_nested (options : Options) (sources : List (Array UInt8)) :
    (sources.map options.nested).map Inquiry.request = sources.map fun source => .script source options := by
  rw [List.map_map]
  rfl

/-- What guests ask for is all that the compiler is asked for on their behalf. -/
theorem Machine.Nested.scripted {env : Environment} {links : Links} {s s' : Store}
    (complete : env.links = some links) (nested : Nested env s s') : s.host.Scripted env [] s'.host := by
  obtain ⟨new, trace, asked⟩ := nested
  rw [Environment.compiled_complete complete] at asked
  exact asked.scripted trace (map_request_nested _ _)

/-- The bytes that a guest asks for a module of, as they are at that moment. -/
def Machine.State.source? (m : State) : Option (Array UInt8) := m.asked?.bind Prod.snd

/-- A run has the compiler given the contents of the buffers that its states ask for modules
from, in order. -/
theorem run_scripts {env : Environment} {links : Links} (complete : env.links = some links) {n : Nat}
    {m : State} {r : Except Failure (List Val)} {s : Store} (ended : run env n m = some (r, s)) :
    ∃ new : List Event, s.host.trace = m.store.host.trace ++ new.toArray ∧
      new.filterMap Event.request? =
        ((passed env n m).filterMap State.source?).map fun source => .script source env.options := by
  obtain ⟨new, trace, asked⟩ := run_asked ended
  obtain ⟨new', trace', requests⟩ := ((nested_lasting env).toLasting.run ended).scripted complete
  obtain rfl : new = new' := (since_eq trace).symm.trans (since_eq trace')
  refine ⟨new, trace, requests.trans ?_⟩
  have sources : new.filterMap Event.source? = (new.filterMap Event.asked?).filterMap Prod.snd :=
    (List.filterMap_filterMap ..).symm
  rw [List.nil_append, sources, asked, List.filterMap_filterMap]
  rfl

/-! ## What guests are answered -/

/-- Whatever becomes of the store, no other instance has the item. -/
def Machine.Exclusive (env : Environment) (inst : Nat) (x : Extern) (s : Store) : Prop :=
  ∀ u, Becomes env s u → ∀ j i, u.instances[j]? = some i → x ∈ i.items → j = inst

/-- A guest asked for a module in `m`, from a live buffer, and goes on in `m'` with the entry of
a new instance of the module that the compiler made of the buffer's bytes. What the module does
not import is the instance's own. -/
inductive Machine.Delivers (env : Environment) (links : Links) (m m' : State) (k : Handle) : Prop
  | intro {source : ByteArray} {o : CompilerOutput} {module : Module} {imports : List Extern}
      {bodies : List (Wasm.FuncType × List Wasm.ValType × List Wasm.Instr)} {i : Instance}
      {data : Array (List UInt8)} {t : Store} {a : Nat}
      (live : m.store.host.buffers.live[k]? = some source)
      (compiled : env.compiler.answerAt m.store.host.requests (.script source.data env.options) = .ok o)
      (fine : o.error = none) (read : Module.ofBytes? o.payload.toList = some module)
      (resolved : m.store.resolve links module = .ok imports)
      (added : Allocated { m.store with host := issued env m.store.host k } t module imports bodies i)
      (found : m'.store.instances[m.store.instances.size]? = some { i with data })
      (goes : m'.control = .leave [.ref (some a)]) (waits : m'.waiting = m.waiting)
      (entry : m'.store.exportedFunc? m.store.instances.size entryName = some a)
      (own : ∀ x ∈ i.items, x ∉ imports → ¬ m.store.Has x ∧ Exclusive env m.store.instances.size x m'.store) :
      Delivers env links m m' k

theorem Machine.Answers.delivers {env : Environment} {links : Links} {m m' : State} {k : Handle}
    (complete : env.links = some links) (sound : Sound m.store)
    (present : ∀ x, Offered links x → m.store.Has x) (ordered : m.order? = some k)
    (answers : Answers env m m') : Delivers env links m m' k := by
  obtain ⟨ready, s, a, begun, became, goes, waits, entry⟩ := answers.begun ordered
  obtain ⟨links', payload, complete', order, made⟩ := beginLoad_ok begun
  cases complete.symm.trans complete'
  obtain ⟨source, o, live, compiled, fine, rfl⟩ := ordered?_eq_some.mp order
  cases instantiate_ends made with
  | @intro module imports bodies i t _ read nested resolved added copied =>
      have offered : ∀ x ∈ imports, Offered links x := fun x among => (resolve_ok resolved among).1
      have apart := apart_lasting complete
      have later : Apart links t m'.store :=
        (apart.edits copied).trans (became.keeps apart.toLasting .withHost)
      obtain ⟨data, found⟩ := later.old added.new
      refine .intro live compiled fine read resolved added found goes waits entry fun x own imported => ?_
      refine ⟨((added.items own).resolve_left imported).1, fun u becomes j i' found' among => ?_⟩
      by_contra other
      exact added.exclusive offered (sound.withHost _) present
        (later.trans (becomes.keeps apart.toLasting .withHost)) other found' own imported among

/-- What comes of a request for a module from a buffer. -/
structure Machine.OrderSpec (env : Environment) (links : Links) (m : State) (k : Handle) : Prop where
  /-- The buffer is consumed, whatever becomes of the load. -/
  consumes : (step env m).store.host.buffers.live = m.store.host.buffers.live.erase k
  /-- Without a buffer the run is over, and nothing is recorded but the loads that fail. -/
  dead : m.store.host.buffers.live[k]? = none →
    step env m = failLoad (m.store.record (.loadIssued k none)) m.waiting (.invalidBuffer k)
  /-- What comes later comes after the answer, but for what the module's start function does. -/
  answered : ∀ {m₂}, Reaches env m m₂ →
    m₂ = m ∨ (∃ inst, During env m inst m₂) ∨ ∃ m', Answers env m m' ∧ Reaches env m' m₂
  delivers : ∀ {m'}, Answers env m m' → Delivers env links m m' k

namespace Session

/-! ## Loads and calls -/

variable {fuel : Nat} {s s' : Session}

theorem load_scripted {source : Array UInt8} {links : Links} {r : Except Error (Entry × Option String)}
    (complete : s.env.links = some links) (loaded : s.load fuel source = some (r, s')) :
    s.host.Scripted s.env [source] s'.host := by
  have serves : s.Serves s.env.compiler { options := s.env.options, format := s.format } :=
    ⟨rfl, rfl, rfl, links, complete⟩
  obtain ⟨_, new, trace, asked⟩ := load_consulted serves loaded
  exact asked.scripted trace (congrArg (_ :: ·) (map_request_nested _ _))

theorem call_scripted {e : Entry} {args : List Value} {links : Links} {r : Except Error Returned}
    (complete : s.env.links = some links) (called : s.call fuel e args = some (r, s')) :
    s.host.Scripted s.env [] s'.host :=
  (call_store_keeps (nested_lasting s.env) called).scripted complete

/-! ## Sessions -/

theorem Reached.becomes (reached : Reached s s') : Becomes s.env s.store s'.store :=
  reached.keeps (becomes_lasting _) fun _ host => .host .start host

/-- An open session is sound: before the support module there are no instances. -/
theorem openWith_sound {id : Nat} {compiler : Compiler} {config : Config} {host : Host}
    (opened : openWith fuel id compiler config = some (.ok s, host)) : Sound s.store := by
  have bare_sound : Sound (bare id compiler config).store := by
    change Sound (linkCapabilities config.table).1
    rw [linkCapabilities_eq]
    exact ⟨by simp, by simp⟩
  cases (openWith_ends opened).1 with
  | alone => exact bare_sound
  | shared _ _ _ launched =>
      exact launch_keeps (sound_lasting _).toLasting (fun _ sound => sound.withHost _)
        (fun _ h => by cases h) launched (bare_sound.withHost _)

/-- All that modules are linked against is in the store. -/
theorem Resolution.has {config : Config} {support : Option Nat} {links : Links} {t : Store}
    (resolution : Resolution config support links t) (sound : Sound t) {x : Extern}
    (offered : Offered links x) : t.Has x := by
  obtain ⟨ns, name, linked⟩ := offered
  have known := (resolution.known ns name).mp (by rw [linked]; rfl)
  rcases known with provided | ⟨rfl, inst, hs, _⟩
  · obtain ⟨c, provided⟩ := Option.isSome_iff_exists.mp provided
    obtain ⟨a, linked', found⟩ := resolution.capability provided
    cases linked.symm.trans linked'
    exact (Array.getElem?_eq_some_iff.mp found).1
  · rw [(resolution.shared hs).2] at linked
    obtain ⟨i, found, exported⟩ := Option.bind_eq_some_iff.mp linked
    obtain ⟨before, after, whole, _⟩ := List.lookup_eq_some_iff.mp exported
    have among : (name, x) ∈ i.exports := by
      rw [whole]
      exact List.mem_append_right _ List.mem_cons_self
    exact sound.items found _ (sound.exports found _ among)

/-- The loads of guests. -/
theorem nested_loads_deliver {fuel₀ id : Nat} {compiler : Compiler} {config : Config} {s₀ s : Session}
    {host : Host} (default : config.capability? "load" "load" = some Capability.load)
    (opened : openWith fuel₀ id compiler config = some (.ok s₀, host)) (reached : Reached s₀ s) :
    (∀ {fuel source r s'}, s.load fuel source = some (r, s') → s.host.Scripted s.env [source] s'.host) ∧
    (∀ {fuel e args r s'}, s.call fuel e args = some (r, s') → s.host.Scripted s.env [] s'.host) ∧
    (∀ {n m r t}, run s.env n m = some (r, t) → ∃ new : List Event,
      t.host.trace = m.store.host.trace ++ new.toArray ∧ new.filterMap Event.request? =
        ((passed s.env n m).filterMap State.source?).map fun source => .script source s.env.options) ∧
    (∀ {m m'}, Reaches s.env m m' → m.store.host.Scripted s.env [] m'.store.host) ∧
    (∀ {m m' : State} {k : Handle}, step s.env m = .next m' → m.store.host.buffers.live[k]? = none →
      m'.store.host.buffers.live[k]? ≠ none → ∃ vals host, Machine.Serves m (.ok vals) host) ∧
    ∃ links, s.env.links = some links ∧ ∀ {m : State}, Becomes s.env s.store m.store →
      (∀ w, m.Enters s.env ("load", "load") [.i32 w] → m.order? = some w.toInt32) ∧
      ∀ {k}, m.order? = some k →
        (∃ ns name c w, config.capability? ns name = some c ∧ c.action = .load ∧
          m.Enters s.env (ns, name) [.i32 w] ∧ w.toInt32 = k) ∧ OrderSpec s.env links m k := by
  obtain ⟨_, links, complete, resolution⟩ := openWith_resolution opened
  have continues := reached.continues
  rw [← continues.env] at complete
  have furnished := openWith_furnished opened
  rw [← continues.env] at furnished
  have scripts {m m' : State} (steps : Reaches s.env m m') : m.store.host.Scripted s.env [] m'.store.host :=
    ((nested_lasting s.env).toLasting.reached steps).scripted complete
  refine ⟨load_scripted complete, call_scripted complete, run_scripts complete, scripts, step_revives, links,
    complete, fun {m} becomes => ?_⟩
  have became : Becomes s.env s₀.store m.store :=
    (becomes_lasting s.env).trans (continues.env ▸ reached.becomes) becomes
  have resolution := resolution.grow (became.keeps (grows_lasting s.env).toLasting .withHost)
  have sound : Sound m.store :=
    became.keeps (sound_lasting s.env).toLasting (fun _ _ sound => sound.withHost _) (openWith_sound opened)
  have furnished : Furnished config links m.store := by
    rw [complete] at furnished
    exact became.keeps (furnished_lasting s.env config links).toLasting (fun _ _ h => h) furnished
  refine ⟨fun w enters => ?_, fun {k} ordered => ⟨?_, step_consumes ordered, step_dead ordered,
    reaches_answered ordered, Answers.delivers complete sound (fun _ => resolution.has sound) ordered⟩⟩
  · obtain ⟨func, entered, linked⟩ := enters
    obtain ⟨a, linked', found⟩ := resolution.capability default
    rw [complete] at linked
    cases linked.symm.trans linked'
    exact State.order?_eq_some.mpr ⟨func, w, _, entered, found, rfl, rfl⟩
  · obtain ⟨func, w, c, entered, found, action, word⟩ := State.order?_eq_some.mp ordered
    obtain ⟨ns, name, provided, linked⟩ := furnished found
    exact ⟨ns, name, c, w, provided, action, ⟨func, entered, by rwa [complete]⟩, word⟩

/-- A compiler that makes of 0 a script that loads 1, of 1 a module whose start function loads 2
and whose entry is the same, and of everything else a script that returns its argument. -/
def staggered : Compiler where
  answer
    | .support optimize => Builtin.compiler.answer (.support optimize)
    | .script source _ =>
      .ok (if source = #[0] then { payload := (Wasm.Binary.module (loader 1 false)).toArray }
        else if source = #[1] then
          { payload := (Wasm.Binary.module
              { loader 2 true with exports := [⟨entryName, .func, 3⟩] }).toArray }
        else { payload := echoSource })

/-- The requests made of the compiler, and what guests ask for and are handed. -/
def exchanges (h h' : Host) : List Event :=
  (Group.since h h').toList.filter fun e => e.isRequest || e.isDealing

set_option maxRecDepth 100000 in
/-- A script loads 1 and goes on, and so did the start function that loaded 2 meanwhile: what
is asked for later was compiled before the script was answered. -/
theorem staggered_interleaves : ∃ s₀ host e listing s r s',
    openWith 100 0 staggered {} = some (.ok s₀, host) ∧
      ({} : Config).capability? "load" "load" = some Capability.load ∧
      s₀.load 100 #[0] = some (.ok (e, listing), s) ∧ s.call 100 e [] = some (.ok r, s') ∧
      exchanges s.host s'.host =
        [.loadIssued 1 (some #[1]), .requested (.script #[1] {}),
          .loadIssued 2 (some #[2]), .requested (.script #[2] {}), .loadReturned 36, .loadReturned 34] := by
  have checked : opensWith (openWith 100 0 staggered {}) (loadsWith 100 #[0] fun e s =>
      callsWith 100 e [] (fun r s' => r.isOk && exchanges s.host s'.host ==
        [.loadIssued 1 (some #[1]), .requested (.script #[1] {}),
          .loadIssued 2 (some #[2]), .requested (.script #[2] {}), .loadReturned 36, .loadReturned 34]) s) = true := by
    decide +kernel
  obtain ⟨s₀, host, opened, h⟩ := opensWith_spec checked
  obtain ⟨e, listing, s, loaded, h⟩ := loadsWith_spec h
  obtain ⟨r, s', called, h⟩ := callsWith_spec h
  rw [Bool.and_eq_true, beq_iff_eq] at h
  cases r with
  | error e => cases h.1
  | ok r => exact ⟨s₀, host, e, listing, s, r, s', opened, rfl, loaded, called, h.2⟩

/-- The state that a run is in after a number of steps, if it goes on for so long. -/
def after? (env : Environment) : Nat → State → Option State
  | 0, m => some m
  | n + 1, m =>
    match step env m with
    | .next m => after? env n m
    | .finished _ _ => none

theorem after?_reaches {env : Environment} {n : Nat} {m m' : State} (h : after? env n m = some m') :
    Reaches env m m' := by
  induction n generalizing m with
  | zero =>
      cases h
      exact .refl
  | succ n ih =>
      rw [after?] at h
      split at h
      · next next => exact .head next (ih h)
      · cases h

set_option maxRecDepth 100000 in
/-- The script's request is answered, with an instance of what the compiler made of 1. -/
theorem staggered_delivers : ∃ s₀ host e listing s m m' links,
    openWith 100 0 staggered {} = some (.ok s₀, host) ∧ s₀.load 100 #[0] = some (.ok (e, listing), s) ∧
      Reaches s.env ⟨s.store, .enter e.func [.i32 0], []⟩ m ∧ m.order? = some 1 ∧
      Answers s.env m m' ∧ Delivers s.env links m m' 1 := by
  have checked : opensWith (openWith 100 0 staggered {}) (loadsWith 100 #[0] fun e s =>
      (after? s.env 14 ⟨s.store, .enter e.func [.i32 0], []⟩).any fun m => m.order? == some 1 &&
        (after? s.env 27 m).any fun m₂ => m₂.order?.isNone && m₂.waiting.length == m.waiting.length) = true := by
    decide +kernel
  obtain ⟨s₀, host, opened, h⟩ := opensWith_spec checked
  obtain ⟨e, listing, s, loaded, h⟩ := loadsWith_spec h
  obtain ⟨m, steps, h⟩ := (Option.any_eq_true _ _).mp h
  rw [Bool.and_eq_true, beq_iff_eq] at h
  obtain ⟨ordered, h⟩ := h
  obtain ⟨m₂, steps', h⟩ := (Option.any_eq_true _ _).mp h
  rw [Bool.and_eq_true, Option.isNone_iff_eq_none, beq_iff_eq] at h
  obtain ⟨other, level⟩ := h
  have reached := after?_reaches steps
  have default : ({} : Config).capability? "load" "load" = some Capability.load := rfl
  obtain ⟨_, _, _, _, _, links, _, orders⟩ := nested_loads_deliver default opened (.load .start loaded)
  obtain ⟨_, spec⟩ := (orders ((becomes_lasting s.env).toLasting.reached reached)).2 ordered
  rcases spec.answered (after?_reaches steps') with rfl | ⟨inst, during⟩ | ⟨m', answers, _⟩
  · cases ordered.symm.trans other
  · obtain ⟨above, waits⟩ := during.waits
    rw [waits] at level
    simp at level
    omega
  · exact ⟨s₀, host, e, listing, s, m, m', links, opened, loaded, reached, ordered, answers,
      spec.delivers answers⟩

end Session

end GuestHost
