import GuestHost.Proofs.Session.Consultations
import GuestHost.Proofs.Session.Linking
import GuestHost.Proofs.Support.Linked
import GuestHost.Proofs.Support.Standing

/-! The support instance that the scripts of a session share stands from the moment the
session is opened, whatever is loaded and called, and whether or not it succeeds. -/

namespace GuestHost.Session

open Machine
open Support (Place Space Planted Standing Lasts Linked)

/-- The one session is what became of the other. -/
structure Continues (s s' : Session) : Prop where
  id : s'.id = s.id
  env : s'.env = s.env
  support : s'.support = s.support
  lasts : Lasts s.store s'.store

theorem Continues.refl (s : Session) : Continues s s := ⟨rfl, rfl, rfl, fun _ h => h⟩

theorem Continues.trans {a b c : Session} (h : Continues a b) (h' : Continues b c) : Continues a c :=
  ⟨h'.id.trans h.id, h'.env.trans h.env, h'.support.trans h.support,
    fun p standing => h'.lasts p (h.lasts p standing)⟩

theorem launch_lasts {env : Environment} {fuel : Nat} {s s' : Store} {payload : Array UInt8}
    {r : Except Error Nat} (ended : launch env fuel (env.links.getD .empty) s payload = some (r, s')) :
    Lasts s s' :=
  launch_keeps (Support.lasts_lasting env).toLasting (fun _ _ standing => standing.withHost _)
    (links_agree env) ended

theorem load_continues {fuel : Nat} {s s' : Session} {source : Array UInt8}
    {r : Except Error (Entry × Option String)} (loaded : s.load fuel source = some (r, s')) :
    Continues s s' := by
  cases load_ends loaded with
  | rejected => exact ⟨rfl, rfl, rfl, fun _ h => h.withHost _⟩
  | failed _ launched | entryless _ launched | loaded _ launched =>
      exact ⟨rfl, rfl, rfl, fun p h => launch_lasts launched p (h.withHost _)⟩

theorem call_continues {fuel : Nat} {s s' : Session} {e : Entry} {args : List Value}
    {r : Except Error Returned} (called : s.call fuel e args = some (r, s')) : Continues s s' := by
  unfold call at called
  split at called
  · obtain ⟨⟨r', store⟩, ended, h⟩ := Option.map_eq_some_iff.mp called
    cases h
    exact ⟨rfl, rfl, rfl, Boundary.call_keeps (b := ⟨s.env, fuel, e.support⟩)
      (Support.lasts_lasting _) e.func args ended⟩
  · cases called
    exact .refl s

/-- A script that makes no arrays of its own is called through the shared instance. -/
theorem load_entry {fuel : Nat} {s s' : Session} {source : Array UInt8} {e : Entry}
    {listing : Option String} (loaded : s.load fuel source = some (.ok (e, listing), s')) :
    e.session = s.id ∧
      (s'.store.export? e.inst "any_array_create" = none → e.support = s.support.getD e.inst) := by
  cases load_ends loaded with
  | loaded _ _ _ helpers =>
      refine ⟨rfl, fun helpless => ?_⟩
      dsimp only at helpless ⊢
      rw [helpers, helpless, if_neg (by simp)]

/-- The sessions that loads and calls lead to, whatever they come to. -/
inductive Reached (s : Session) : Session → Prop
  | start : Reached s s
  | load {s₁ s₂ : Session} {fuel : Nat} {source : Array UInt8}
      {r : Except Error (Entry × Option String)} (earlier : Reached s s₁)
      (loaded : s₁.load fuel source = some (r, s₂)) : Reached s s₂
  | call {s₁ s₂ : Session} {fuel : Nat} {e : Entry} {args : List Value} {r : Except Error Returned}
      (earlier : Reached s s₁) (called : s₁.call fuel e args = some (r, s₂)) : Reached s s₂

theorem Reached.trans {a b c : Session} (h : Reached a b) (h' : Reached b c) : Reached a c := by
  induction h' with
  | start => exact h
  | load _ loaded ih => exact ih.load loaded
  | call _ called ih => exact ih.call called

theorem Reached.continues {s s' : Session} (reached : Reached s s') : Continues s s' := by
  induction reached with
  | start => exact .refl s
  | load _ loaded ih => exact ih.trans (load_continues loaded)
  | call _ called ih => exact ih.trans (call_continues called)

/-- Loads and calls keep what guest code and the host's use of buffers keep. -/
theorem Reached.keeps {R : Store → Store → Prop} {s s' : Session} (h : Session.Lasting s.env R)
    (hosts : ∀ s host, R s { s with host }) (reached : Reached s s') : R s.store s'.store := by
  induction reached with
  | start => exact h.refl _
  | load earlier loaded ih =>
      rw [← earlier.continues.env] at h
      exact h.trans ih (load_keeps h.toLasting hosts loaded)
  | call earlier called ih =>
      rw [← earlier.continues.env] at h
      exact h.trans ih (call_store_keeps h called)

/-! ## Tests of what comes of a step -/

/-- Whether opening gave a session that passes a test. -/
def opensWith (opened : Option (Except Error Session × Host)) (test : Session → Bool) : Bool :=
  match opened with
  | some (.ok s, _) => test s
  | _ => false

theorem opensWith_spec {opened : Option (Except Error Session × Host)} {test : Session → Bool}
    (h : opensWith opened test = true) : ∃ s host, opened = some (.ok s, host) ∧ test s = true := by
  unfold opensWith at h
  split at h
  · next s host => exact ⟨s, host, rfl, h⟩
  · cases h

/-- Whether loading a script gave an entry and a session that pass a test. -/
def loadsWith (fuel : Nat) (source : Array UInt8) (test : Entry → Session → Bool) (s : Session) : Bool :=
  match s.load fuel source with
  | some (.ok (e, _), s) => test e s
  | _ => false

theorem loadsWith_spec {fuel : Nat} {source : Array UInt8} {test : Entry → Session → Bool} {s : Session}
    (h : loadsWith fuel source test s = true) :
    ∃ e listing s', s.load fuel source = some (.ok (e, listing), s') ∧ test e s' = true := by
  unfold loadsWith at h
  split at h
  · next e listing s' loaded => exact ⟨e, listing, s', loaded, h⟩
  · cases h

/-- Whether a call ended, and with an answer and a session that pass a test. -/
def callsWith (fuel : Nat) (e : Entry) (args : List Value) (test : Except Error Returned → Session → Bool)
    (s : Session) : Bool :=
  match s.call fuel e args with
  | some (r, s) => test r s
  | none => false

theorem callsWith_spec {fuel : Nat} {e : Entry} {args : List Value}
    {test : Except Error Returned → Session → Bool} {s : Session}
    (h : callsWith fuel e args test s = true) :
    ∃ r s', s.call fuel e args = some (r, s') ∧ test r s' = true := by
  unfold callsWith at h
  split at h
  · next r s' called => exact ⟨r, s', called, h⟩
  · cases h

/-! ## Opening -/

/-- The compiler has the support module for a session that shares one. -/
def Supplies (compiler : Compiler) (config : Config) : Prop :=
  ∃ o, compiler.answerAt 0 (.support config.options.optimize) = .ok o ∧ o.error = none ∧
    Wasm.Module.ofBytes? o.payload.toList = some Support.module

/-- The default capabilities are linked as the support module imports them. -/
theorem linked_defaults (id : Nat) (compiler : Compiler) {config : Config}
    (default : config.overrides = .empty) :
    Linked ((bare id compiler config).env.links.getD .empty) (bare id compiler config).store := by
  have provided {name : String} {c : Capability}
      (found : (Capability.defaults config.outlet).get? "buffer" name = some c) :
      config.table.get? "buffer" name = some c := by
    rw [Config.get?_table, Config.capability?, if_pos (Registry.mem_namespaces_of_get? found), default,
      Registry.get?_empty, Option.none_or, found]
  dsimp only [bare, Option.getD_some]
  exact ⟨linkCapabilities_capability (provided (by simp [Capability.defaults, Registry.get?_add])),
    linkCapabilities_capability (provided (by simp [Capability.defaults, Registry.get?_add])),
    linkCapabilities_capability (provided (by simp [Capability.defaults, Registry.get?_add])),
    linkCapabilities_capability (provided (by simp [Capability.defaults, Registry.get?_add]))⟩

theorem consume_ok {o : CompilerOutput} (fine : o.error = none) (format : Option ListingFormat) :
    ∃ d, (o.consume format).1 = .ok d ∧ d.payload = o.payload := by
  obtain ⟨error, payload, listing, sourceMap⟩ := o
  cases fine
  cases format with
  | none => exact ⟨_, rfl, rfl⟩
  | some f => exact ⟨_, rfl, rfl⟩

theorem compile_ok {h : Host} {c : Compiler} {r : Request} {o : CompilerOutput}
    (answer : c.answerAt h.requests r = .ok o) (fine : o.error = none)
    (format : Option ListingFormat) :
    ∃ d, (h.compile c r format).1 = .ok d ∧ d.payload = o.payload := by
  obtain ⟨d, consumed, payload⟩ := consume_ok fine format
  refine ⟨d, ?_, payload⟩
  rw [Host.compile, answer]
  exact consumed

/-- Bringing the support module to life puts an instance of it into the store. -/
theorem launch_standing (env : Environment) (fuel : Nat) {links : Links} {s : Store}
    {payload : Array UInt8} (linked : Linked links s)
    (decoded : Wasm.Module.ofBytes? payload.toList = some Support.module) :
    ∃ (p : Place) (s' : Store), launch env fuel links s payload = some (.ok p.inst, s') ∧
      Standing p s' ∧ p.Owns s' (Space.fresh s.host.buffers) := by
  obtain ⟨p, hp, made, stands, owns⟩ := Support.instantiate_module decoded linked
  have standing : Standing p (Support.adding s p) := by
    refine ⟨stands, fun m hm => ?_, _, owns.top⟩
    rw [owns.memory] at hm
    cases hm
    rfl
  generalize Support.adding s p = s' at made standing owns
  refine ⟨p, s'.mapHost Host.addInstance, ?_, standing.withHost _, owns.memory, owns.top, owns.buffers⟩
  rw [launch, made]

/-- However a session is configured that is not standalone, it has the instance of the support
module, once it is open. -/
theorem openWith_plants {fuel id : Nat} {compiler : Compiler} {config : Config} {s : Session} {host : Host}
    (shared : config.options.standalone = false) (supplied : Supplies compiler config)
    (opened : openWith fuel id compiler config = some (.ok s, host)) :
    ∃ p : Place, s.support = some p.inst ∧ Planted p s.store := by
  cases (openWith_ends opened).1 with
  | alone standalone => cases standalone.symm.trans shared
  | @shared d _ _ _ _ _ _ compiled launched =>
      obtain ⟨o, answer, fine, decoded⟩ := supplied
      have asked : compiler.answerAt (bare id compiler config).store.host.requests
          (.support config.options.optimize) = .ok o := by
        rw [bare_host]
        exact answer
      obtain ⟨d', consumed, payload⟩ := compile_ok asked fine config.format
      rw [compiled] at consumed
      cases consumed
      rw [← payload] at decoded
      have planted {ready : Ready} {links : Links} {t t' : Store}
          (made : t.instantiate links d.payload = (.ok ready, t')) :
          ∃ p : Place, ready = ⟨p.inst, none⟩ ∧ Planted p t' := by
        obtain ⟨p, same, rooted, owns⟩ := Support.instantiate_module_ok decoded made
        exact ⟨p, same, rooted, _, owns.top⟩
      cases launch_ends launched with
      | still made =>
          obtain ⟨p, same, planted⟩ := planted made
          cases same
          exact ⟨p, rfl, planted.withHost _⟩
      | started made =>
          obtain ⟨p, same, _⟩ := planted made
          cases same

/-- With a support module from its compiler a session comes to have an instance of it that has
handed out nothing. -/
theorem withSupport_shares (fuel : Nat) {b : Session} {o : CompilerOutput}
    (answer : b.env.compiler.answerAt b.store.host.requests (.support b.env.options.optimize) = .ok o)
    (fine : o.error = none) (decoded : Wasm.Module.ofBytes? o.payload.toList = some Support.module)
    (linked : Linked (b.env.links.getD .empty) b.store) :
    ∃ (s : Session) (host : Host) (p : Place),
      b.withSupport fuel = some (.ok s, host) ∧ s.env.compiler = b.env.compiler ∧
        s.support = some p.inst ∧ Standing p s.store ∧
        p.Owns s.store (Space.fresh b.store.host.buffers) := by
  obtain ⟨d, compiled, payload⟩ := compile_ok answer fine b.format
  rw [← payload] at decoded
  obtain ⟨p, s', launched, standing, owns⟩ :=
    launch_standing { b.env with links := none } fuel (linked.withHost _) decoded
  dsimp only at owns
  rw [Host.compile_buffers] at owns
  rw [withSupport]
  dsimp only
  rw [compiled]
  dsimp only
  rw [launched]
  exact ⟨_, _, p, rfl, rfl, rfl, standing, owns⟩

/-- A session that is not standalone is opened, and has an instance of the support module
that has handed out nothing. -/
theorem openWith_shares (fuel id : Nat) {compiler : Compiler} {config : Config}
    (shared : config.options.standalone = false) (supplied : Supplies compiler config)
    (default : config.overrides = .empty) :
    ∃ (s : Session) (host : Host) (p : Place),
      openWith fuel id compiler config = some (.ok s, host) ∧ s.env.compiler = compiler ∧
        s.support = some p.inst ∧ Standing p s.store ∧ p.Owns s.store (Space.fresh {}) := by
  obtain ⟨o, answer, fine, decoded⟩ := supplied
  have opened : openWith fuel id compiler config = (bare id compiler config).withSupport fuel := by
    rw [openWith, shared]
    rfl
  have asked : (bare id compiler config).env.compiler.answerAt (bare id compiler config).store.host.requests
      (.support (bare id compiler config).env.options.optimize) = .ok o := by
    rw [bare_host]
    exact answer
  have shares := withSupport_shares fuel asked fine decoded (linked_defaults id compiler default)
  rw [bare_host] at shares
  rw [opened]
  exact shares

end GuestHost.Session
