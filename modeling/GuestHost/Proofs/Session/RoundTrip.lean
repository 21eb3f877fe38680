import GuestHost.Proofs.Compiler.Builtin
import GuestHost.Proofs.Session.Packing
import GuestHost.Proofs.Session.Shared
import GuestHost.Proofs.Session.Steadiness
import GuestHost.Proofs.Session.Unpacking
import GuestHost.Proofs.Support.History

/-! Arguments that a script returns come back as they were, from every state that a
session can be in, as long as there is room to pack them. -/

namespace GuestHost.Session

open Machine
open Support (Place Space Standing limit space?)

/-- The stores differ in nothing but what an instance of the support module works on. -/
structure Beside (inst : Nat) (s t : Store) : Prop where
  funcs : t.funcs = s.funcs
  tables : t.tables = s.tables
  instances : t.instances = s.instances
  memories : ∀ a, s.memoryAddr? inst ≠ some a → t.memories[a]? = s.memories[a]?
  globals : ∀ a, s.globalAddr? inst 0 ≠ some a → t.globals[a]? = s.globals[a]?
  host : { t.host with buffers := s.host.buffers } = s.host

/-- Whatever the instance works on, the function returns the reference it is called with,
and neither what the instance has handed out nor a live buffer has changed. -/
structure Echoes (env : Environment) (s : Store) (inst func : Nat) : Prop where
  typed : s.hasType func Boundary.entryType = true
  returns : ∀ (t : Store) (x : Space) (r : UInt32), Beside inst s t → space? t inst = some x →
    ∃ (n : Nat) (t' : Store) (y : Space),
      (∀ fuel ≥ n, invoke env fuel t func [.i32 r] = some (.ok [.i32 r], t')) ∧
      space? t' inst = some y ∧ x.memory.size ≤ y.memory.size ∧
      (∀ i, i < x.top.toNat → y.memory.byte i = x.memory.byte i) ∧ y.buffers.live = x.buffers.live

theorem beside_put {p : Place} {s : Store} (h : p.Stands s) (x : Space) : Beside p.inst s (p.put s x) where
  funcs := rfl
  tables := rfl
  instances := rfl
  memories := by
    intro a other
    have address : s.memoryAddr? p.inst = some p.memory := by
      rw [Store.memoryAddr?, h.found]
      rfl
    refine Array.getElem?_setIfInBounds_ne ?_
    rintro rfl
    exact other address
  globals := by
    intro a other
    have address : s.globalAddr? p.inst 0 = some p.heap := by
      rw [Store.globalAddr?, h.found]
      rfl
    rw [Place.put]
    dsimp only
    rw [Array.getElem?_modify, if_neg]
    rintro rfl
    exact other address
  host := rfl

/-- A call of an entry that returns its argument packs the arguments and unpacks them again. -/
theorem call_settles {env : Environment} {p : Place} {s : Store} {x : Space} {func : Nat}
    {vs : List Value} (standing : Standing p s) (owns : p.Owns s x) (few : x.memory.pages ≤ 65535)
    (base : 16 ≤ x.top.toNat) (short : ∀ v ∈ vs, v.Short)
    (room : Value.packedEnd x.top.toNat vs ≤ limit) (echoes : Echoes env s p.inst func) :
    Settles (fun fuel => (p.boundary env fuel).call func vs) s (fun _ => False)
      (x.buffers.Full ∧ ∃ text, .text text ∈ vs) fun r t => r = .ofList vs ∧ x.buffers.Kept t.host.buffers := by
  have packs := Boundary.pack_settles env standing.toStands short ⟨standing.unbounded _ owns.memory, few⟩ base room
  rw [owns.put_eq] at packs
  cases packs with
  | failed _ impossible => exact impossible.elim
  | never full never =>
      obtain ⟨n, never⟩ := never
      exact .never full ⟨n, fun fuel enough => Boundary.call_stuck echoes.typed (never fuel enough)⟩
  | @done packed _ packs passes =>
      obtain ⟨y, rfl, kept, passed⟩ := passes
      obtain ⟨n₁, packs⟩ := packs
      have standing_y : Standing p (p.put s y) :=
        Boundary.pack_keeps (b := p.boundary env n₁) (Support.lasts_lasting env) vs
          (packs n₁ (Nat.le_refl _)) p standing
      have found := standing_y.space?_eq.mpr (standing.owns_put y)
      obtain ⟨n₂, t, z, runs, found_z, grown, same, live⟩ :=
        echoes.returns (p.put s y) y packed (beside_put standing.toStands y) found
      have standing_t : Standing p t :=
        (Support.lasts_lasting env).toLasting.invoke (runs n₂ (Nat.le_refl _)) p standing_y
      have owns_z := standing_t.space?_eq.mp found_z
      have unpacks := Boundary.unpack_settles env standing_t.toStands (passed.congr grown same)
      rw [owns_z.put_eq] at unpacks
      have unchanged : x.buffers.Kept z.buffers := kept.trans live
      have called {r : Option (Except Error Returned × Store)} {n₃ : Nat}
          (unpacks : ∀ fuel ≥ n₃, ((p.boundary env fuel).unpack packed).run t = r) :
          ∃ n, ∀ fuel ≥ n, ((p.boundary env fuel).call func vs).run s = r := by
        refine ⟨max n₁ (max n₂ n₃), fun fuel enough => ?_⟩
        rw [Boundary.call_run echoes.typed (packs fuel (by omega)) (runs fuel (by omega))]
        exact unpacks fuel (by omega)
      cases unpacks with
      | failed _ impossible => exact impossible.elim
      | never full never =>
          obtain ⟨n₃, never⟩ := never
          exact .never (full.imp_left unchanged.full) (called never)
      | done unpacks leaves =>
          obtain ⟨rfl, u, kept', rfl⟩ := leaves
          obtain ⟨n₃, unpacks⟩ := unpacks
          exact .done (called unpacks) ⟨rfl, unchanged.trans kept'⟩

/-- Arguments come back from an entry that returns its argument: the same values in the
same order, whatever was loaded and called before, failures included, and no buffer is left
behind. Only where every handle is live and there is a text among them the call never ends. -/
theorem arguments_return {fuel₀ fuel₁ id : Nat} {compiler : Compiler} {config : Config}
    {s₀ s₁ s₂ s : Session} {host : Host} {source : Array UInt8} {e : Entry} {listing : Option String}
    {x : Space} {args : List Value} (shared : config.options.standalone = false)
    (supplied : Supplies compiler config) (default : config.overrides = .empty)
    (opened : openWith fuel₀ id compiler config = some (.ok s₀, host)) (earlier : Reached s₀ s₁)
    (loaded : s₁.load fuel₁ source = some (.ok (e, listing), s₂))
    (helpless : s₂.store.export? e.inst "any_array_create" = none) (later : Reached s₂ s)
    (found : space? s.store e.support = some x) (few : x.memory.pages ≤ 65535)
    (base : 16 ≤ x.top.toNat) (short : ∀ v ∈ args, v.Short)
    (room : Value.packedEnd x.top.toNat args ≤ limit) (echoes : Echoes s.env s.store e.support e.func) :
    (∃ n s', (∀ fuel ≥ n, s.call fuel e args = some (.ok (Returned.ofList args), s')) ∧
      s'.host.buffers.live = s.host.buffers.live) ∨
    (s.host.buffers.Full ∧ ∃ text, .text text ∈ args) ∧ ∀ fuel, s.call fuel e args = none := by
  obtain ⟨s₀', host', p, opened', -, support, standing, -⟩ :=
    openWith_shares fuel₀ id shared supplied default
  cases opened'.symm.trans opened
  obtain ⟨session, through⟩ := load_entry loaded
  have before := earlier.continues
  have after := (load_continues loaded).trans later.continues
  have inst : e.support = p.inst := by
    rw [through helpless, before.support, support]
    rfl
  have standing_s : Standing p s.store := after.lasts p (before.lasts p standing)
  rw [inst] at found echoes
  have owns := standing_s.space?_eq.mp found
  have calls (fuel : Nat) := call_own (session.trans after.id.symm) fuel args
  rw [inst] at calls
  cases call_settles standing_s owns few base short room echoes with
  | failed _ impossible => exact impossible.elim
  | done comes leaves =>
      obtain ⟨n, comes⟩ := comes
      obtain ⟨rfl, kept⟩ := leaves
      rw [← owns.buffers] at kept
      exact .inl ⟨n, { s with store := _ }, fun fuel enough => by rw [calls, comes fuel enough]; rfl, kept⟩
  | never full never =>
      rw [← owns.buffers] at full
      refine .inr ⟨full, fun fuel => ?_⟩
      rw [calls, (Boundary.call_steady e.func args).never never, Option.map_none]

/-! ## A script that returns its argument -/

theorem supplies_builtin (config : Config) : Supplies Builtin.compiler config := by
  obtain ⟨fine, payload⟩ := Builtin.answer_module Support.ofBytes?_module
  refine ⟨Builtin.answer _, rfl, fine, ?_⟩
  rw [payload]
  exact Support.ofBytes?_module

/-- A function whose code is to get its argument. -/
def echo (home : Nat) : Func := .guest ⟨[.i32], [.i32]⟩ home [] [.plain (.localGet 0)]

theorem echoes_of_code {env : Environment} {s : Store} {func home : Nat} (inst : Nat)
    (code : s.funcs[func]? = some (echo home)) : Echoes env s inst func where
  typed := by
    rw [Store.hasType, code]
    rfl
  returns := by
    intro t x r beside found
    rw [← beside.funcs] at code
    have entered : step env ⟨t, .enter func [.i32 r], []⟩ = .next ⟨t, .run
        { inst := home, depth := 0, code := [.plain (.localGet 0)], arity := 1, locals := [.i32 r] }, []⟩ := by
      rw [step, enter, code]
      rfl
    have ended : invoke env 4 t func [.i32 r] = some (.ok [.i32 r], t) := by
      rw [invoke, run, entered]
      rfl
    refine ⟨4, t, x, fun fuel enough => ?_, found, Nat.le_refl _, fun _ _ => rfl, rfl⟩
    obtain ⟨k, rfl⟩ := Nat.exists_eq_add_of_le enough
    exact run_mono ended

/-- The module of such a script. -/
def echoModule : Wasm.Module where
  types := [⟨[.i32], [.i32]⟩]
  funcs := [0]
  exports := [⟨entryName, .func, 0⟩]
  bodies := [⟨[], [.plain (.localGet 0), .close]⟩]

theorem ofBytes?_echoModule : Wasm.Module.ofBytes? (Wasm.Binary.module echoModule) = some echoModule := by
  decide +kernel

/-- The store with the script's function and instance. -/
def withEcho (s : Store) : Store :=
  { s with
    funcs := s.funcs ++ [echo s.instances.size]
    instances := s.instances.push
      { types := echoModule.types
        funcs := #[s.funcs.size]
        exports := [(entryName, .func s.funcs.size)] } }

theorem instantiate_echo {s : Store} {links : Links} {payload : Array UInt8}
    (decoded : Wasm.Module.ofBytes? payload.toList = some echoModule) :
    s.instantiate links payload = (.ok ⟨s.instances.size, none⟩, withEcho s) := by
  rw [Store.instantiate, decoded]
  rfl

theorem exportedFunc?_withEcho (s : Store) :
    (withEcho s).exportedFunc? s.instances.size entryName = some s.funcs.size := by
  rw [Store.exportedFunc?, Store.export?, withEcho, Array.getElem?_push_size]
  rfl

theorem export?_withEcho (s : Store) : (withEcho s).export? s.instances.size "any_array_create" = none := by
  rw [Store.export?, withEcho, Array.getElem?_push_size]
  rfl

theorem funcs_withEcho (s : Store) : (withEcho s).funcs[s.funcs.size]? = some (echo s.instances.size) :=
  getElem?_append_right s.funcs [echo s.instances.size] 0

/-- The source of the script for the built-in compiler, which takes a binary module as it is. -/
def echoSource : Array UInt8 := (Wasm.Binary.module echoModule).toArray

theorem assemble_echo : Builtin.assemble echoSource = some (Wasm.Binary.module echoModule) := by
  rw [Builtin.assemble, if_pos (by decide +kernel)]
  rfl

theorem load_echo {s : Session} (builtin : s.env.compiler = Builtin.compiler) (fuel : Nat) :
    ∃ e listing s', s.load fuel echoSource = some (.ok (e, listing), s') ∧
      s'.store.export? e.inst "any_array_create" = none ∧ s'.store.funcs[e.func]? = some (echo e.inst) ∧
      s'.store.memories = s.store.memories ∧ s'.store.globals = s.store.globals ∧
      s'.host.buffers = s.host.buffers := by
  have answer : s.env.compiler.answerAt s.host.requests (.script echoSource s.env.options) =
      .ok (Builtin.answer (some (Wasm.Binary.module echoModule))) := by
    rw [builtin, ← assemble_echo]
    rfl
  obtain ⟨fine, payload⟩ := Builtin.answer_module ofBytes?_echoModule
  obtain ⟨d, compiled, same⟩ := compile_ok answer fine s.format
  have decoded : Wasm.Module.ofBytes? d.payload.toList = some echoModule := by
    rw [same, payload, List.toList_toArray]
    exact ofBytes?_echoModule
  let t : Store := { s.store with
    host := (s.host.compile s.env.compiler (.script echoSource s.env.options) s.format).2 }
  have launched : launch s.env fuel (s.env.links.getD .empty) t d.payload =
      some (.ok t.instances.size, (withEcho t).mapHost Host.addInstance) := by
    rw [launch, instantiate_echo decoded]
  unfold load
  dsimp only
  rw [compiled]
  dsimp only
  rw [launched]
  dsimp only
  rw [show ((withEcho t).mapHost Host.addInstance).exportedFunc? t.instances.size entryName =
    some t.funcs.size from exportedFunc?_withEcho t]
  exact ⟨_, _, _, rfl, export?_withEcho t, funcs_withEcho t, rfl, rfl,
    Host.compile_buffers _ _ _ _⟩

/-- Three values come back from a script that returns its argument. -/
theorem three_return : ∃ (s₀ s : Session) (host : Host) (e : Entry) (listing : Option String) (n : Nat)
    (s' : Session), openWith 0 0 Builtin.compiler {} = some (.ok s₀, host) ∧
      s₀.load 0 echoSource = some (.ok (e, listing), s) ∧
      ∀ fuel ≥ n, s.call fuel e [.integer 5, .nil, .text "é"] =
        some (.ok (.multiple [.integer 5, .nil, .text "é"]), s') := by
  have shared : ({} : Config).options.standalone = false := rfl
  have supplied := supplies_builtin {}
  obtain ⟨s₀, host, p, opened, builtin, support, standing, owns⟩ := openWith_shares 0 0 shared supplied rfl
  obtain ⟨e, listing, s, loaded, helpless, code, memories, globals, buffers⟩ := load_echo builtin 0
  have inst : e.support = p.inst := by
    rw [(load_entry loaded).2 helpless, support]
    rfl
  have stands : p.Stands s.store := ((load_continues loaded).lasts p standing).toStands
  have empty : s.host.buffers = {} := buffers.trans owns.buffers
  have owns_s : p.Owns s.store (Space.fresh {}) := by
    refine ⟨?_, ?_, empty⟩
    · rw [memories]
      exact owns.memory
    · rw [globals]
      exact owns.top
  have found : space? s.store e.support = some (Space.fresh {}) := by
    rw [inst]
    exact stands.space?_eq.mpr owns_s
  have few : (Space.fresh {}).memory.pages ≤ 65535 := by decide
  have room : Value.packedEnd (Space.fresh {}).top.toNat [.integer 5, .nil, .text "é"] ≤ limit := by
    change Value.packedEnd 16 _ ≤ limit
    decide +kernel
  rcases arguments_return shared supplied rfl opened .start loaded helpless .start found few (Nat.le_refl 16)
    (by decide +kernel) room (echoes_of_code e.support code) with ⟨n, s', called, -⟩ | ⟨⟨full, -⟩, -⟩
  · exact ⟨s₀, s, host, e, listing, n, s', opened, loaded, called⟩
  · rw [empty] at full
    cases full

end GuestHost.Session
