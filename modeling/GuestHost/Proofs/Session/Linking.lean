import GuestHost.Proofs.Machine.Allocation
import GuestHost.Proofs.Registry
import GuestHost.Session.Basic

/-! How the links of a session are put together: every capability is defined once, and so
is everything that the support instance exports. -/

namespace GuestHost

open Machine
open Registry (keys addAll defineAll)

/-- The capability that a configuration provides under a name. An override wins over a
default, but only in a namespace that the defaults have. -/
def Config.capability? (c : Config) (ns name : String) : Option Capability :=
  if ns ∈ (Capability.defaults c.outlet).namespaces then
    (c.overrides.get? ns name).or ((Capability.defaults c.outlet).get? ns name)
  else none

/-- A configuration that replaces nothing has the defaults. -/
theorem Config.capability?_default {c : Config} (default : c.overrides = .empty) (ns name : String) :
    c.capability? ns name = (Capability.defaults c.outlet).get? ns name := by
  rw [capability?, default, Registry.get?_empty, Option.none_or, ite_eq_left_iff]
  intro absent
  cases found : (Capability.defaults c.outlet).get? ns name with
  | none => rfl
  | some f => exact absurd (Registry.mem_namespaces_of_get? found) absent

theorem Config.get?_table (c : Config) (ns name : String) :
    c.table.get? ns name = c.capability? ns name :=
  Registry.get?_override (Capability.defaults c.outlet) c.overrides ns name

namespace Session

/-- The namespace of the support module is not one of the defaults. -/
theorem supportSpace_free (o : Outlet) : supportSpace ∉ (Capability.defaults o).namespaces := by
  simp [Capability.defaults, Registry.mem_namespaces_add, Registry.not_mem_namespaces_empty, supportSpace]

@[simp] theorem capability?_supportSpace (c : Config) (name : String) :
    c.capability? supportSpace name = none :=
  if_neg (supportSpace_free c.outlet)

/-! ## Capabilities -/

/-- Capabilities as functions of the host. -/
def hostFuncs (entries : List (String × String × Capability)) : List Func :=
  entries.map fun (_, _, c) => .host c

/-- The definitions of capabilities that stand in a row from address `n` on. -/
def capabilityDefs (n : Nat) (entries : List (String × String × Capability)) :
    List (String × String × Extern) :=
  (entries.zipIdx n).map fun ((ns, name, _), a) => (ns, name, .func a)

theorem keys_capabilityDefs (n : Nat) (entries : List (String × String × Capability)) :
    keys (capabilityDefs n entries) = keys entries := by
  induction entries generalizing n with
  | nil => rfl
  | cons e entries ih => exact congrArg (_ :: ·) (ih (n + 1))

theorem foldl_link (entries : List (String × String × Capability)) (s : Store) (links : Links) :
    entries.foldl
        (fun (s, links) (ns, name, c) => (s.addFunc (.host c), links.add ns name (.func s.funcs.size)))
        (s, links) =
      ({ s with funcs := s.funcs ++ hostFuncs entries },
        links.addAll (capabilityDefs s.funcs.size entries)) := by
  induction entries generalizing s links with
  | nil => simp [hostFuncs, capabilityDefs, addAll]
  | cons e entries ih =>
      rw [List.foldl_cons, ih]
      simp [hostFuncs, capabilityDefs, addAll, Store.addFunc]

theorem linkCapabilities_eq (table : Registry Capability) :
    linkCapabilities table =
      ({ funcs := (hostFuncs table.toList).toArray },
        Registry.empty.addAll (capabilityDefs 0 table.toList)) := by
  rw [linkCapabilities, foldl_link]
  simp

/-- The capabilities stand in the order of their names, each linked to its place. -/
theorem linkCapabilities_place {table : Registry Capability} {ns name : String} {c : Capability} {a : Nat}
    (place : table.toList[a]? = some (ns, name, c)) :
    (linkCapabilities table).2.get? ns name = some (.func a) ∧
      (linkCapabilities table).1.funcs[a]? = some (.host c) := by
  have among : (ns, name, .func a) ∈ capabilityDefs 0 table.toList :=
    List.mem_map.mpr ⟨((ns, name, c), a), List.mk_mem_zipIdx_iff_getElem?.mpr place, rfl⟩
  have distinct : (keys (capabilityDefs 0 table.toList)).Nodup := by
    rw [keys_capabilityDefs]
    exact table.nodup_keys
  rw [linkCapabilities_eq]
  exact ⟨Registry.get?_addAll distinct among .empty, by simp [hostFuncs, place]⟩

/-- A capability of the table is linked under its name. -/
theorem linkCapabilities_capability {table : Registry Capability} {ns name : String} {c : Capability}
    (provided : table.get? ns name = some c) :
    ∃ a, (linkCapabilities table).2.get? ns name = some (.func a) ∧
      (linkCapabilities table).1.funcs[a]? = some (.host c) := by
  obtain ⟨a, place⟩ := List.mem_iff_getElem?.mp (Registry.mem_toList.mpr provided)
  exact ⟨a, linkCapabilities_place place⟩

/-- There are no other functions. -/
theorem linkCapabilities_func {table : Registry Capability} {a : Nat} {c : Capability}
    (found : (linkCapabilities table).1.funcs[a]? = some (.host c)) :
    ∃ ns name, table.get? ns name = some c ∧
      (linkCapabilities table).2.get? ns name = some (.func a) := by
  rw [linkCapabilities_eq, List.getElem?_toArray, hostFuncs, List.getElem?_map] at found
  obtain ⟨⟨ns, name, c'⟩, place, same⟩ := Option.map_eq_some_iff.mp found
  cases same
  exact ⟨ns, name, Registry.mem_toList.mp (List.mem_of_getElem? place), (linkCapabilities_place place).1⟩

/-- Nothing else is. -/
theorem linkCapabilities_other {table : Registry Capability} {ns name : String}
    (unknown : table.get? ns name = none) : (linkCapabilities table).2.get? ns name = none := by
  rw [linkCapabilities_eq, Registry.get?_addAll_other, Registry.get?_empty]
  rw [keys_capabilityDefs, keys, List.mem_map]
  rintro ⟨⟨_, _, c⟩, among, same⟩
  cases same
  rw [Registry.mem_toList, unknown] at among
  cases among

/-! ## Exports -/

/-- The definitions of what an instance exports. -/
def sharedDefs (i : Instance) : List (String × String × Extern) :=
  i.exports.map fun (name, x) => (supportSpace, name, x)

theorem linkInstance_eq (links : Links) (i : Instance) :
    linkInstance links i = links.addAll (sharedDefs i) := by
  rw [linkInstance, addAll, sharedDefs, List.foldl_map]

theorem nodup_sharedDefs {i : Instance} (distinct : (i.exports.map Prod.fst).Nodup) :
    (keys (sharedDefs i)).Nodup := by
  have listed : keys (sharedDefs i) = (i.exports.map Prod.fst).map fun name => (supportSpace, name) := by
    simp only [keys, sharedDefs, List.map_map]
    rfl
  rw [listed]
  exact distinct.map fun _ _ same => (Prod.mk.inj same).2

theorem mem_keys_sharedDefs {i : Instance} {ns name : String} :
    (ns, name) ∈ keys (sharedDefs i) ↔ ns = supportSpace ∧ ∃ x, (name, x) ∈ i.exports := by
  simp only [keys, sharedDefs, List.map_map, List.mem_map, Function.comp_apply, Prod.mk.injEq,
    Prod.exists]
  constructor
  · rintro ⟨_, x, among, rfl, rfl⟩
    exact ⟨rfl, x, among⟩
  · rintro ⟨rfl, x, among⟩
    exact ⟨name, x, among, rfl, rfl⟩

theorem linkInstance_other {ns : String} (other : ns ≠ supportSpace) (links : Links) (i : Instance)
    (name : String) : (linkInstance links i).get? ns name = links.get? ns name := by
  rw [linkInstance_eq, Registry.get?_addAll_other]
  exact fun among => other (mem_keys_sharedDefs.mp among).1

/-- In its own namespace an instance's exports are linked, and nothing else is that was
not before. -/
theorem linkInstance_shared {links : Links} {i : Instance} (distinct : (i.exports.map Prod.fst).Nodup)
    {name : String} (new : links.get? supportSpace name = none) :
    (linkInstance links i).get? supportSpace name = i.find? name := by
  rw [linkInstance_eq]
  cases found : i.find? name with
  | none =>
      rw [Registry.get?_addAll_other, new]
      rintro among
      obtain ⟨_, x, among⟩ := mem_keys_sharedDefs.mp among
      exact absurd rfl (bne_iff_ne.mp (List.lookup_eq_none_iff.mp found (name, x) among))
  | some x =>
      refine Registry.get?_addAll (nodup_sharedDefs distinct) (List.mem_map.mpr ⟨(name, x), ?_, rfl⟩) links
      obtain ⟨before, after, whole, _⟩ := List.lookup_eq_some_iff.mp found
      rw [whole]
      exact List.mem_append_right _ List.mem_cons_self

/-! ## Each name once

A linker that refuses a second definition of a name never gets one. -/

/-- The complaint of a linker about a name that it has a definition of. -/
def definedTwice (ns name : String) : String := "import of `" ++ ns ++ "::" ++ name ++ "` defined twice"

/-- Links capabilities as long as their names are new. -/
def linkCapabilitiesOnce (table : Registry Capability) : Except Error (Store × Links) := do
  let complaint (ns name : String) : Error :=
    .setup ("failed to define " ++ ns ++ "::" ++ name ++ ": " ++ definedTwice ns name)
  let links ← Registry.empty.defineAll complaint (capabilityDefs 0 table.toList)
  return ({ funcs := (hostFuncs table.toList).toArray }, links)

/-- Links what an instance exports as long as the names are new. -/
def linkInstanceOnce (links : Links) (i : Instance) : Except Error Links :=
  let complaint (ns name : String) : Error :=
    .setup ("failed to register runtime: " ++ definedTwice ns name)
  links.defineAll complaint (sharedDefs i)

theorem linkCapabilitiesOnce_eq (table : Registry Capability) :
    linkCapabilitiesOnce table = .ok (linkCapabilities table) := by
  have distinct : (keys (capabilityDefs 0 table.toList)).Nodup := by
    rw [keys_capabilityDefs]
    exact table.nodup_keys
  rw [linkCapabilitiesOnce, Registry.defineAll_eq distinct fun ns name _ => Registry.get?_empty ns name,
    linkCapabilities_eq]
  rfl

theorem linkInstanceOnce_eq {links : Links} {i : Instance} (distinct : (i.exports.map Prod.fst).Nodup)
    (new : ∀ name, links.get? supportSpace name = none) :
    linkInstanceOnce links i = .ok (linkInstance links i) := by
  rw [linkInstanceOnce, linkInstance_eq]
  refine Registry.defineAll_eq (nodup_sharedDefs distinct) fun ns name among => ?_
  obtain ⟨rfl, _⟩ := mem_keys_sharedDefs.mp among
  exact new name

end Session

end GuestHost
