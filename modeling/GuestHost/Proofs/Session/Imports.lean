import GuestHost.Compiler.Builtin
import GuestHost.Proofs.Machine.Orders
import GuestHost.Proofs.Machine.Separation
import GuestHost.Proofs.Session.Linking
import GuestHost.Proofs.Session.Shared

/-! What the imports of modules stand for in a session. The configuration decides it once
and for all: capabilities under their names, what the support instance exports in a
namespace of its own, and nothing else. -/

namespace GuestHost.Session

open Machine
open Wasm (Module Import)

/-! ## Bringing payloads to life -/

section

variable {env : Environment} {fuel : Nat} {links : Links} {s s' : Store} {payload : Array UInt8}
  {ready : Ready}

/-- A failure of the start function is of another kind than one to link. -/
theorem launch_link {n : String} :
    launch env fuel links s payload = some (.error (.link n), s') ↔
      s.instantiate links payload = (.error (.link n), s') := by
  rw [launch]
  generalize s.instantiate links payload = made
  obtain ⟨_ | ⟨inst, _ | start⟩, s₁⟩ := made
  · simp
  · simp
  · dsimp only
    cases invoke env fuel s₁ start [] with
    | none => simp
    | some ended =>
        obtain ⟨_ | _, _⟩ := ended
        · simp
        · simp

/-- An instance exports under different names. -/
theorem nodup_exports {m : Module} (valid : m.isValid = true) (i : Instance) :
    ((m.exports.filterMap (exported? i)).map Prod.fst).Nodup := by
  have kept (e : Wasm.Export) (p : String × Extern) (h : exported? i e = some p) : p.1 = e.name := by
    unfold exported? at h
    split at h
    all_goals
      obtain ⟨a, _, rfl⟩ := Option.map_eq_some_iff.mp h
      rfl
  have part : ((m.exports.filterMap (exported? i)).map Prod.fst).Sublist (m.exports.map Wasm.Export.name) := by
    generalize m.exports = es
    induction es with
    | nil => exact .slnil
    | cons e es ih =>
        rw [List.map_cons]
        cases h : exported? i e with
        | none =>
            rw [List.filterMap_cons_none h]
            exact ih.cons _
        | some p =>
            rw [List.filterMap_cons_some h, List.map_cons, kept e p h]
            exact ih.cons_cons _
  exact part.nodup (Module.isValid_exports valid)

theorem instantiate_ok (made : s.instantiate links payload = (.ok ready, s')) :
    ∃ i, s'.instances[ready.inst]? = some i ∧ (i.exports.map Prod.fst).Nodup := by
  cases instantiate_ends made with
  | intro read _ _ added copied =>
      have grows := (grows_lasting ⟨Builtin.compiler, {}, none⟩).edits copied
      obtain ⟨i', found, same⟩ := grows.instances added.new
      refine ⟨i', found, ?_⟩
      rw [same, added.exports]
      exact nodup_exports (ofBytes?_valid read) _

theorem launch_ok {inst : Nat} (launched : launch env fuel links s payload = some (.ok inst, s')) :
    ∃ i, s'.instances[inst]? = some i ∧ (i.exports.map Prod.fst).Nodup := by
  cases launch_ends launched with
  | still made => exact instantiate_ok made
  | started made ran =>
      obtain ⟨i, found, distinct⟩ := instantiate_ok made
      obtain ⟨i', found', same⟩ := ((grows_lasting env).invoke ran).instances found
      exact ⟨i', found', same ▸ distinct⟩

/-- The instance is one of the module in a payload. Of each kind its items start with those that the
links have for the module's imports, in order. -/
inductive Supplied (links : Links) (payload : Array UInt8) (inst : Nat) (t : Store) : Prop
  | intro {m : Module} {items : List Extern} {i : Instance}
      (read : Module.ofBytes? payload.toList = some m)
      (linked : List.Forall₂ (fun j x => links.get? j.space j.name = some x) m.imports items)
      (found : t.instances[inst]? = some i)
      (funcs : funcAddrs items <+: i.funcs.toList) (tables : tableAddrs items <+: i.tables.toList)
      (memories : memoryAddrs items <+: i.memories.toList)
      (globals : globalAddrs items <+: i.globals.toList) : Supplied links payload inst t

/-- An instance is supplied from the links, and remains so. -/
theorem instantiate_supplied (complete : env.links = some links) {t : Store}
    (made : s.instantiate links payload = (.ok ready, s')) (later : Apart links s' t) :
    Supplied links payload ready.inst t := by
  cases instantiate_ends made with
  | intro read _ resolved added copied =>
      obtain ⟨data, found⟩ := (((apart_lasting complete).edits copied).trans later).old added.new
      obtain ⟨_, _, _, globals⟩ := added.globals
      refine .intro read ((resolve_forall₂ resolved).imp fun _ _ both => both.1) found ?_ ?_ ?_ ?_
      · rw [added.ownFuncs]
        exact List.prefix_append _ _
      · rw [added.ownTables]
        exact List.prefix_append _ _
      · rw [added.ownMemories]
        exact List.prefix_append _ _
      · rw [globals, Array.toList_append]
        exact List.prefix_append _ _

theorem launch_supplied (complete : env.links = some links) {inst : Nat}
    (launched : launch env fuel links s payload = some (.ok inst, s')) : Supplied links payload inst s' := by
  cases launch_ends launched with
  | still made => exact instantiate_supplied complete made (.withHost _ _)
  | started made ran =>
      exact instantiate_supplied complete made
        (((apart_lasting complete).toLasting.invoke ran).trans (.withHost _ _))

theorem beginLoad_supplied (complete : env.links = some links) {buffer : Handle}
    (begun : beginLoad env s buffer = (.ok ready, s')) :
    ∃ payload, ordered? env s.host buffer = some payload ∧ Supplied links payload ready.inst s' := by
  obtain ⟨links', payload, complete', ordered, made⟩ := beginLoad_ok begun
  cases complete.symm.trans complete'
  exact ⟨payload, ordered, instantiate_supplied complete made (.refl _)⟩

end

/-! ## Sessions -/

theorem Reached.grows {s s' : Session} (reached : Reached s s') : Grows s.store s'.store :=
  reached.keeps (grows_lasting _) Grows.withHost

/-! ## Resolution -/

/-- What names stand for in a session with this configuration and support instance, at a
moment when its store is `t`. -/
structure Resolution (config : Config) (support : Option Nat) (links : Links) (t : Store) : Prop where
  /-- The names that have a definition. -/
  known : ∀ ns name, (links.get? ns name).isSome ↔
    (config.capability? ns name).isSome ∨
      ns = supportSpace ∧ ∃ inst, support = some inst ∧ (t.export? inst name).isSome
  capability : ∀ {ns name c}, config.capability? ns name = some c →
    ∃ a, links.get? ns name = some (.func a) ∧ t.funcs[a]? = some (.host c)
  shared : ∀ {inst}, support = some inst →
    (∃ i, t.instances[inst]? = some i) ∧ ∀ name, links.get? supportSpace name = t.export? inst name

/-- Nothing that happens later changes what a name stands for. -/
theorem Resolution.grow {config : Config} {support : Option Nat} {links : Links} {t t' : Store}
    (h : Resolution config support links t) (grows : Grows t t') :
    Resolution config support links t' := by
  have exports {inst : Nat} (hs : support = some inst) (name : String) :
      t'.export? inst name = t.export? inst name := by
    obtain ⟨⟨i, found⟩, _⟩ := h.shared hs
    exact grows.export? found name
  refine ⟨fun ns name => ?_, fun provided => ?_, fun {inst} hs => ⟨?_, fun name => ?_⟩⟩
  · rw [h.known]
    constructor
    · rintro (provided | ⟨rfl, inst, hs, exported⟩)
      · exact .inl provided
      · exact .inr ⟨rfl, inst, hs, by rwa [exports hs]⟩
    · rintro (provided | ⟨rfl, inst, hs, exported⟩)
      · exact .inl provided
      · exact .inr ⟨rfl, inst, hs, by rwa [exports hs] at exported⟩
  · obtain ⟨a, linked, found⟩ := h.capability provided
    exact ⟨a, linked, grows.funcs found⟩
  · obtain ⟨⟨i, found⟩, _⟩ := h.shared hs
    obtain ⟨i', found', _⟩ := grows.instances found
    exact ⟨i', found'⟩
  · rw [(h.shared hs).2, exports hs]

/-- A session without a support module links its capabilities and nothing else. -/
theorem bare_resolution (id : Nat) (compiler : Compiler) (config : Config) :
    Resolution config none (linkCapabilities config.table).2 (bare id compiler config).store := by
  refine ⟨fun ns name => ?_, fun provided => ?_, nofun⟩
  · cases provided : config.capability? ns name with
    | none => simp [linkCapabilities_other ((config.get?_table ns name).trans provided)]
    | some c =>
        obtain ⟨a, linked, _⟩ := linkCapabilities_capability ((config.get?_table ns name).trans provided)
        simp [linked]
  · exact linkCapabilities_capability ((config.get?_table _ _).trans provided)

/-- With the support instance, what it exports is linked besides. -/
theorem Resolution.share {config : Config} {links : Links} {t : Store} {inst : Nat} {i : Instance}
    (h : Resolution config none links t) (found : t.instances[inst]? = some i)
    (distinct : (i.exports.map Prod.fst).Nodup) :
    Resolution config (some inst) (linkInstance links i) t := by
  have unshared (name : String) : links.get? supportSpace name = none := by
    rw [← Option.not_isSome_iff_eq_none, h.known]
    simp
  have shared (name : String) : (linkInstance links i).get? supportSpace name = t.export? inst name := by
    rw [linkInstance_shared distinct (unshared name), Store.export?, found, Option.bind_some]
  refine ⟨fun ns name => ?_, fun {ns name c} provided => ?_, fun hs => ?_⟩
  · by_cases same : ns = supportSpace
    · subst same
      simp [shared]
    · rw [linkInstance_other same, h.known]
      simp [same]
  · have other : ns ≠ supportSpace := by
      rintro rfl
      simp at provided
    rw [linkInstance_other other]
    exact h.capability provided
  · cases hs
    exact ⟨⟨i, found⟩, shared⟩

/-- The functions of the host are the configuration's capabilities, linked under their names. -/
def Furnished (config : Config) (links : Links) (s : Store) : Prop :=
  ∀ ⦃a c⦄, s.funcs[a]? = some (.host c) → ∃ ns name,
    config.capability? ns name = some c ∧ links.get? ns name = some (.func a)

theorem furnished_lasting (env : Environment) (config : Config) (links : Links) :
    Session.Lasting env fun s s' => Furnished config links s → Furnished config links s' :=
  (hosts_lasting env).preserves fun same furnished _ _ found => furnished (same found)

theorem bare_furnished (id : Nat) (compiler : Compiler) (config : Config) :
    Furnished config (linkCapabilities config.table).2 (bare id compiler config).store := by
  intro a c found
  change (linkCapabilities config.table).1.funcs[a]? = some (.host c) at found
  obtain ⟨ns, name, provided, linked⟩ := linkCapabilities_func found
  exact ⟨ns, name, (config.get?_table ns name).symm.trans provided, linked⟩

/-! ## Opening -/

/-- The session with the support module, linked by a linker that refuses to define a name
twice. -/
def withSupportOnce (fuel : Nat) (s : Session) : Option (Except Error Session × Host) :=
  let links := s.env.links.getD .empty
  let (decoded, host) :=
    s.store.host.compile s.env.compiler (.support s.env.options.optimize) s.format
  match decoded with
  | .error e => some (.error e, host)
  | .ok d =>
    match launch { s.env with links := none } fuel links { s.store with host } d.payload with
    | none => none
    | some (.error e, store) => some (.error e, store.host)
    | some (.ok inst, store) =>
      match linkInstanceOnce links (store.instances[inst]?.getD {}) with
      | .error e => some (.error e, store.host)
      | .ok links =>
        let env := { s.env with links := some links }
        some (.ok { s with env, store, support := some inst, supportListing := d.listing }, store.host)

/-- Opens a session with a linker that refuses to define a name twice. -/
def openOnce (fuel id : Nat) (compiler : Compiler) (config : Config) :
    Option (Except Error Session × Host) :=
  match linkCapabilitiesOnce config.table with
  | .error e => some (.error e, {})
  | .ok (store, links) =>
    let s : Session :=
      { id, store
        env := ⟨compiler, config.options, some links⟩
        format := config.format
        support := none
        supportListing := none
        sourceMap := none }
    if config.options.standalone then some (.ok s, s.store.host) else s.withSupportOnce fuel

section

variable {fuel id : Nat} {compiler : Compiler} {config : Config}

/-- Such a linker has nothing to refuse. -/
theorem openOnce_eq (fuel id : Nat) (compiler : Compiler) (config : Config) :
    openOnce fuel id compiler config = openWith fuel id compiler config := by
  rw [openOnce, openWith, linkCapabilitiesOnce_eq]
  change (if _ then _ else (bare id compiler config).withSupportOnce fuel) = _
  congr 1
  have resolution := bare_resolution id compiler config
  have unshared (name : String) : (linkCapabilities config.table).2.get? supportSpace name = none := by
    rw [← Option.not_isSome_iff_eq_none, resolution.known]
    simp
  rw [withSupportOnce, withSupport]
  generalize Host.compile _ _ _ _ = compiled
  obtain ⟨decoded, host⟩ := compiled
  cases decoded with
  | error e => rfl
  | ok d =>
      dsimp only
      cases launched : launch _ fuel _ _ d.payload with
      | none => rfl
      | some ended =>
          obtain ⟨_ | inst, store⟩ := ended
          · rfl
          · obtain ⟨i, found, distinct⟩ := launch_ok launched
            have once : linkInstanceOnce ((bare id compiler config).env.links.getD .empty) i =
                .ok (linkInstance ((bare id compiler config).env.links.getD .empty) i) :=
              linkInstanceOnce_eq distinct unshared
            dsimp only
            rw [found, Option.getD_some, once]

/-- An open session has a support instance unless it is standalone, and its names stand for
what the configuration and that instance make of them. -/
theorem openWith_resolution {s : Session} {host : Host}
    (opened : openWith fuel id compiler config = some (.ok s, host)) :
    s.support.isSome = !config.options.standalone ∧
      ∃ links, s.env.links = some links ∧ Resolution config s.support links s.store := by
  have resolution := bare_resolution id compiler config
  cases (openWith_ends opened).1 with
  | alone standalone => exact ⟨by rw [standalone]; rfl, _, rfl, resolution⟩
  | shared shares complete _ launched =>
      cases complete
      obtain ⟨i, found, distinct⟩ := launch_ok launched
      have grown := launch_keeps (grows_lasting _).toLasting (fun s => .withHost s _)
        (fun _ h => by cases h) launched
      have grows := (Grows.withHost (bare id compiler config).store _).trans grown
      refine ⟨by rw [shares]; rfl, _, rfl, ?_⟩
      dsimp only
      rw [found, Option.getD_some]
      exact (resolution.grow grows).share found distinct

/-- The functions of the host are there when the session is open, and link as they did. -/
theorem openWith_furnished {s : Session} {host : Host}
    (opened : openWith fuel id compiler config = some (.ok s, host)) :
    Furnished config (s.env.links.getD .empty) s.store := by
  have furnished := bare_furnished id compiler config
  cases (openWith_ends opened).1 with
  | alone => exact furnished
  | shared _ complete _ launched =>
      cases complete
      intro a c found
      obtain ⟨ns, name, provided, linked⟩ :=
        launch_keeps (furnished_lasting _ config (linkCapabilities config.table).2).toLasting
          (fun _ furnished => furnished) (fun _ h => by cases h) launched furnished found
      refine ⟨ns, name, provided, ?_⟩
      have other : ns ≠ supportSpace := by
        rintro rfl
        simp at provided
      change (linkInstance _ _).get? ns name = _
      rw [linkInstance_other other]
      exact linked

end

/-! ## Imports -/

/-- A script is refused for lack of a definition if that is the matter with what the
compiler made of it. -/
theorem load_link {fuel : Nat} {s s' : Session} {source : Array UInt8} {links : Links} {n : String}
    (complete : s.env.links = some links) :
    s.load fuel source = some (.error (.link n), s') ↔
      ∃ d host, s.host.compile s.env.compiler (.script source s.env.options) s.format = (.ok d, host) ∧
        Unlinked links d.payload n ∧ s' = { s with store := { s.store with host } } := by
  rw [load]
  dsimp only
  generalize compiled : Host.compile _ _ _ _ = c
  obtain ⟨decoded, host⟩ := c
  cases decoded with
  | error e =>
      rcases Host.compile_error (congrArg Prod.fst compiled) with ⟨text, rfl⟩ | ⟨text, rfl⟩
      · simp
      · simp
  | ok d =>
      rw [complete]
      constructor
      · intro refused
        dsimp only at refused
        split at refused
        · cases refused
        · next launched =>
            cases refused
            obtain ⟨rfl, unlinked⟩ := instantiate_link.mp (launch_link.mp launched)
            exact ⟨d, host, rfl, unlinked, rfl⟩
        · split at refused
          · cases refused
          · cases refused
      · rintro ⟨_, _, same, unlinked, rfl⟩
        cases same
        dsimp only
        rw [Option.getD_some, launch_link.mpr (instantiate_link.mpr ⟨rfl, unlinked⟩)]

/-- Which imports of a session's modules resolve, and to what, is decided by its
configuration. No name is defined twice while it is opened. Whatever is loaded and called
afterwards, at every moment of everything that then runs, the same links tell the same
items, to scripts and to modules that guests load, and an instance that is made has these items
for its imports. A module is refused for lack of a definition exactly if one of its imports has
none; it is refused for the first of these, and before any guest code runs or the store is
touched. -/
theorem imports_fixed (config : Config) :
    (∀ fuel id compiler,
      openOnce fuel id compiler config = openWith fuel id compiler config) ∧
    ∀ {fuel id compiler s₀ host s},
      openWith fuel id compiler config = some (.ok s₀, host) → Reached s₀ s →
      (s.support.isSome = !config.options.standalone) ∧
      ∃ links, s₀.env.links = some links ∧ s.env.links = some links ∧
        (∀ {m m'}, Grows s.store m.store →
          Relation.ReflTransGen (fun m m' => step s.env m = .next m') m m' →
          Resolution config s.support links m'.store) ∧
        (∀ payload m, Module.ofBytes? payload.toList = some m →
          ((∃ n, Unlinked links payload n) ↔ ∃ i ∈ m.imports, links.get? i.space i.name = none)) ∧
        (∀ fuel t payload n t',
          launch s.env fuel links t payload = some (.error (.link n), t') ↔
            t' = t ∧ Unlinked links payload n) ∧
        (∀ fuel source n s',
          s.load fuel source = some (.error (.link n), s') ↔
            ∃ d host,
              s.host.compile s.env.compiler (.script source s.env.options) s.format = (.ok d, host) ∧
              Unlinked links d.payload n ∧ s' = { s with store := { s.store with host } }) ∧
        (∀ t buffer n t',
          beginLoad s.env t buffer = (.error (.link n), t') ↔
            ∃ payload, ordered? s.env t.host buffer = some payload ∧ Unlinked links payload n ∧
              t' = { t with host := issued s.env t.host buffer }) ∧
        (∀ {fuel t payload inst t'},
          launch s.env fuel links t payload = some (.ok inst, t') → Supplied links payload inst t') ∧
        ∀ {t buffer ready t'}, beginLoad s.env t buffer = (.ok ready, t') →
          ∃ payload, ordered? s.env t.host buffer = some payload ∧
            Supplied links payload ready.inst t' := by
  refine ⟨fun fuel id compiler => openOnce_eq fuel id compiler config, ?_⟩
  intro fuel id compiler s₀ host s opened reached
  obtain ⟨support, links, complete, resolution⟩ := openWith_resolution opened
  have continues := reached.continues
  have linked : s.env.links = some links := by rw [continues.env, complete]
  rw [← continues.support] at support resolution
  refine ⟨support, links, complete, linked, fun {m m'} grows steps => ?_, fun payload m => unlinked_iff,
    fun fuel t payload n t' => ?_, fun fuel source n s' => load_link linked, fun t buffer n t' => ?_,
    launch_supplied linked, beginLoad_supplied linked⟩
  · have runs := (grows_lasting s.env).toLasting.reached steps
    exact resolution.grow ((reached.grows.trans grows).trans runs)
  · rw [launch_link, instantiate_link]
  · simp only [beginLoad_link linked, instantiate_link, and_comm]

/-- A configuration that overrides a default, and a namespace that is none of the defaults. -/
def oddConfig : Config where
  overrides := Registry.empty
    |>.add "native" "pow" Capability.toNumber
    |>.add "runtime" "extra" Capability.power

/-- A module whose imports are a capability, by another type than it has, and a function
that only an override would define. -/
def oddModule : Module where
  types := [⟨[], []⟩]
  imports := [⟨"native", "pow", .func 0⟩, ⟨"runtime", "extra", .func 0⟩]

set_option maxRecDepth 100000 in
/-- The module is refused for its second import, not for the type of its first. -/
theorem oddModule_refused : ∃ s host links,
    openWith 100 0 Builtin.compiler oddConfig = some (.ok s, host) ∧
      Reached s s ∧ Resolution oddConfig s.support links s.store ∧
      launch s.env 0 links s.store (Wasm.Binary.module oddModule).toArray =
        some (.error (.link "runtime::extra"), s.store) := by
  have checked : opensWith (openWith 100 0 Builtin.compiler oddConfig) (fun s => s.env.links.any fun links =>
      (links.get? "native" "pow").isSome && (links.get? "runtime" "extra").isNone) = true := by
    decide +kernel
  obtain ⟨s, host, opened, passed⟩ := opensWith_spec checked
  obtain ⟨links, linked, passed⟩ := (Option.any_eq_true _ _).mp passed
  rw [Bool.and_eq_true, Option.isNone_iff_eq_none] at passed
  obtain ⟨_, links', complete, _, resolution, _, refused, _⟩ :=
    (imports_fixed oddConfig).2 opened (.start (s := s))
  rw [linked] at complete
  cases complete
  have first : FirstLacking links oddModule ⟨"runtime", "extra", .func 0⟩ :=
    ⟨[⟨"native", "pow", .func 0⟩], [], rfl, by simpa using passed.1, passed.2⟩
  refine ⟨s, host, links, opened, .start, resolution (.refl _) .refl (m := ⟨s.store, .leave [], []⟩), ?_⟩
  exact (refused _ _ _ _ _).mpr ⟨rfl, oddModule, _, by decide +kernel, first, rfl⟩

end GuestHost.Session
