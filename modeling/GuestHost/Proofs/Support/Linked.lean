import GuestHost.Proofs.Machine.Separation
import GuestHost.Proofs.Support.Allocation

/-! Bringing the support module to life. The instance stands in the store, its memory is
one page of zeros, and it has handed out nothing. -/

namespace GuestHost.Support

open Machine
open Wasm (Module FuncType ValType Instr)

/-- Links lead from a name of the buffers' namespace to a capability. -/
def Offers (links : Links) (s : Store) (name : String) (c : Capability) (a : Nat) : Prop :=
  links.get? "buffer" name = some (.func a) ∧ s.funcs[a]? = some (.host c)

/-- The links offer everything that the module imports. -/
structure Linked (links : Links) (s : Store) : Prop where
  new : ∃ a, Offers links s "new" Capability.bufferNew a
  set : ∃ a, Offers links s "set" Capability.bufferSet a
  get : ∃ a, Offers links s "get" Capability.bufferGet a
  size : ∃ a, Offers links s "size" Capability.bufferSize a

theorem Linked.withHost {links : Links} {s : Store} (h : Linked links s) (host : Host) :
    Linked links { s with host } :=
  ⟨h.new, h.set, h.get, h.size⟩

/-- The module's functions with their types, locals and code. -/
def bodies : List (FuncType × List ValType × List Instr) :=
  functions.map fun f => (module.types.getD f.type ⟨[], []⟩, f.body.localTypes, f.code)

theorem nestedBodies?_module : nestedBodies? module = some bodies := rfl

variable {links : Links} {s : Store}

theorem resolve_module {new set get size : Nat}
    (hn : Offers links s "new" Capability.bufferNew new)
    (hs : Offers links s "set" Capability.bufferSet set)
    (hg : Offers links s "get" Capability.bufferGet get)
    (hz : Offers links s "size" Capability.bufferSize size) :
    s.resolve links module = .ok [.func new, .func set, .func get, .func size] := by
  have fits : ∀ {name : String} {c : Capability} {a i : Nat}, Offers links s name c a →
      module.types[i]? = some c.type → s.fits module.types (.func i) (.func a) = true := by
    intro name c a i offered type
    simp [Store.fits, type, offered.2, Func.type]
  have fn := fits (i := 0) hn rfl
  have fs := fits (i := 1) hs rfl
  have fg := fits (i := 2) hg rfl
  have fz := fits (i := 0) hz rfl
  have known : (module.imports.find? fun i => (links.get? i.space i.name).isNone) = none := by
    simp [module, hn.1, hs.1, hg.1, hz.1]
  have found : (module.imports.filterMap fun i => (links.get? i.space i.name).map fun x => (i, x)) =
      module.imports.zip [.func new, .func set, .func get, .func size] := by
    simp [module, hn.1, hs.1, hg.1, hz.1]
  rw [Store.resolve, known]
  dsimp only
  rw [found]
  split
  · next i y misfit =>
      have among := List.mem_of_find?_eq_some misfit
      have unfit := List.find?_some misfit
      simp only [module, List.zip_cons_cons, List.zip_nil_right, List.mem_cons, List.not_mem_nil,
        or_false, Prod.mk.injEq] at among
      rcases among with ⟨rfl, rfl⟩ | ⟨rfl, rfl⟩ | ⟨rfl, rfl⟩ | ⟨rfl, rfl⟩
      · simp [fn] at unfit
      · simp [fs] at unfit
      · simp [fg] at unfit
      · simp [fz] at unfit
  · rfl

/-- Whatever else they are, what the module's imports stand for are functions. -/
theorem resolve_module_ok {imports : List Extern} (resolved : s.resolve links module = .ok imports) :
    ∃ new set get size, imports = [.func new, .func set, .func get, .func size] := by
  have func {i : Nat} {x : Extern} (fits : s.fits module.types (.func i) x = true) : ∃ a, x = .func a := by
    cases x with
    | func a => exact ⟨a, rfl⟩
    | table | memory | global => cases fits
  cases resolve_forall₂ resolved with
  | cons h pairs =>
      obtain ⟨new, rfl⟩ := func h.2
      cases pairs with
      | cons h pairs =>
          obtain ⟨set, rfl⟩ := func h.2
          cases pairs with
          | cons h pairs =>
              obtain ⟨get, rfl⟩ := func h.2
              cases pairs with
              | cons h pairs =>
                  obtain ⟨size, rfl⟩ := func h.2
                  cases pairs
                  exact ⟨new, set, get, size, rfl⟩

/-- The place of an instance that is the next in the store. -/
def placeIn (s : Store) (new set get size : Nat) : Place where
  inst := s.instances.size
  bufferNew := new
  bufferSet := set
  bufferGet := get
  bufferSize := size
  base := s.funcs.size
  memory := s.memories.size
  heap := s.globals.size

/-- The store with the module's items and its instance. -/
def adding (s : Store) (p : Place) : Store :=
  { s with
    funcs := s.funcs ++ ownFuncs s.instances.size bodies
    memories := s.memories ++ [Memory.mk 1 none {}]
    globals := s.globals.push ⟨⟨.i32, true⟩, .i32 16⟩
    instances := s.instances.push p.image }

theorem exports_image (p : Place) : module.exports.filterMap (exported? p.image) = p.image.exports := by
  rfl

theorem addGlobal_module (s : Store) (i : Instance) :
    module.globals.foldlM (fun si g => addGlobal g si) (s, i) =
      Except.ok ({ s with globals := s.globals.push ⟨⟨.i32, true⟩, .i32 16⟩ },
        { i with globals := i.globals.push s.globals.size }) :=
  rfl

theorem allocate_module (new set get size : Nat) :
    s.allocate module [.func new, .func set, .func get, .func size] bodies =
      .ok (adding s (placeIn s new set get size), (placeIn s new set get size).image) := by
  have image : ({ types := module.types
                  funcs := (placeIn s new set get size).image.funcs
                  memories := #[s.memories.size]
                  globals := #[s.globals.size]
                  exports := module.exports.filterMap (exported? (placeIn s new set get size).image) }
                    : Instance) = (placeIn s new set get size).image := by
    rw [exports_image]
    rfl
  rw [Store.allocate]
  dsimp only
  rw [addGlobal_module, adding, ← image]
  rfl

/-- With the module's items and its instance, the store has the instance at its place. -/
theorem rooted_adding (new set get size : Nat) :
    (placeIn s new set get size).Rooted (adding s (placeIn s new set get size)) where
  found := by simp [adding, placeIn]
  own := by
    intro k f found
    simp only [adding, placeIn]
    rw [getElem?_append_right]
    simp [ownFuncs, bodies, found, Place.func]
  memory := by simp [adding, placeIn]
  heap := by simp [adding, placeIn]

theorem owns_adding (new set get size : Nat) :
    (placeIn s new set get size).Owns (adding s (placeIn s new set get size)) (Space.fresh s.host.buffers) where
  memory := by simp [adding, placeIn, Space.fresh]
  top := by simp [adding, placeIn, Space.fresh]
  buffers := rfl

/-- However its imports are linked, the module's items and its instance are added to what is
there. -/
theorem instantiate_module_ok {payload : Array UInt8} {ready : Ready} {s' : Store}
    (decoded : Module.ofBytes? payload.toList = some module)
    (made : s.instantiate links payload = (.ok ready, s')) :
    ∃ p : Place, ready = ⟨p.inst, none⟩ ∧ p.Rooted s' ∧ p.Owns s' (Space.fresh s.host.buffers) := by
  rw [Store.instantiate, decoded] at made
  dsimp only at made
  rw [nestedBodies?_module] at made
  dsimp only at made
  split at made
  · cases made
  · next resolved =>
      obtain ⟨new, set, get, size, rfl⟩ := resolve_module_ok resolved
      rw [allocate_module] at made
      cases made
      exact ⟨placeIn s new set get size, rfl, rooted_adding new set get size, owns_adding new set get size⟩

/-- The module's items and its instance are added to what is there. -/
theorem instantiate_module {payload : Array UInt8}
    (decoded : Module.ofBytes? payload.toList = some module) (linked : Linked links s) :
    ∃ p : Place, p.inst = s.instances.size ∧
      s.instantiate links payload = (.ok ⟨p.inst, none⟩, adding s p) ∧
      p.Stands (adding s p) ∧ p.Owns (adding s p) (Space.fresh s.host.buffers) := by
  obtain ⟨new, hn⟩ := linked.new
  obtain ⟨set, hs⟩ := linked.set
  obtain ⟨get, hg⟩ := linked.get
  obtain ⟨size, hz⟩ := linked.size
  refine ⟨placeIn s new set get size, rfl, ?_, ?_, ?_⟩
  · rw [Store.instantiate, decoded]
    dsimp only
    rw [nestedBodies?_module]
    dsimp only
    rw [resolve_module hn hs hg hz]
    dsimp only
    rw [allocate_module]
    rfl
  · exact ⟨rooted_adding new set get size, getElem?_append_left _ hn.2, getElem?_append_left _ hs.2,
      getElem?_append_left _ hg.2, getElem?_append_left _ hz.2⟩
  · exact owns_adding new set get size

end GuestHost.Support
