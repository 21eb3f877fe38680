import GuestHost.Proofs.Registry.Overrides
import GuestHost.Proofs.Session.Linking

/-! Tables of capabilities, as definitions and overrides make them and as a linker receives them.
The main statement holds the laws of all three together. -/

namespace GuestHost

open Machine
open Registry (of last? keys Ordered)

namespace Capability

/-- A linker has a function of the host for each entry of a table, in the order of the entries,
under the entry's names and no others. -/
structure LinkedFrom (table : Registry Capability) (s : Store) (links : Links) : Prop where
  funcs : s.funcs.toList = Session.hostFuncs table.toList
  entries : ∀ ns name c, (ns, name, c) ∈ table.toList ↔ table.get? ns name = some c
  once : (keys table.toList).Nodup
  place : ∀ a ns name c, table.toList[a]? = some (ns, name, c) → links.get? ns name = some (.func a)
  only : ∀ ns name x, links.get? ns name = some x → ∃ a c, x = .func a ∧
    table.toList[a]? = some (ns, name, c)

theorem linkedFrom (table : Registry Capability) :
    LinkedFrom table (Session.linkCapabilities table).1 (Session.linkCapabilities table).2 where
  funcs := by rw [Session.linkCapabilities_eq]
  entries _ _ _ := Registry.mem_toList
  once := table.nodup_keys
  place _ _ _ _ at_ := (Session.linkCapabilities_place at_).1
  only ns name x found := by
    cases provided : table.get? ns name with
    | none =>
        rw [Session.linkCapabilities_other provided] at found
        cases found
    | some c =>
        obtain ⟨a, place⟩ := List.mem_iff_getElem?.mp (Registry.mem_toList.mpr provided)
        rw [(Session.linkCapabilities_place place).1] at found
        exact ⟨a, c, (Option.some.inj found).symm, place⟩

/-- The laws of tables of capabilities. A table is what definitions make of it one after the
other, and whatever is put together from tables is one again. -/
theorem tables_settled (d o o' : List (String × String × Capability)) :
    -- Overrides of overrides are overrides, and the same overrides again change nothing.
    ((of d).override (of o)).override (of o') = (of d).override ((of o).addAll (of o').toList) ∧
    ((of d).override (of o)).override (of o) = (of d).override (of o) ∧
    (∀ ns name, ((of d).override (of o)).get? ns name =
      if ns ∈ (of d).namespaces ∧ ((of o).get? ns name).isSome then (of o).get? ns name
      else (of d).get? ns name) ∧
    ((of d).override (of o)).namespaces = (of d).namespaces ∧
    (∃ e, (of d).override (of o) = of e) ∧
    -- Only the last definition of each name counts.
    (∀ ns name c ns' name' c', (ns, name) ≠ (ns', name') →
      ((of d).add ns name c).add ns' name' c' = ((of d).add ns' name' c').add ns name c) ∧
    (of d = of o ↔ ∀ ns name, last? d ns name = last? o ns name) ∧
    (∀ ns name, (of d).get? ns name = last? d ns name) ∧
    (∀ ns name c, (of d).insert ns name c = (last? d ns name, of (d ++ [(ns, name, c)]))) ∧
    -- Names are listed in the order of their bytes.
    (Ordered (of d).namespaces ∧ ∀ ns, ns ∈ (of d).namespaces ↔ ∃ name c, (ns, name, c) ∈ d) ∧
    (∀ ns, Ordered ((of d).names ns) ∧ ∀ name, name ∈ (of d).names ns ↔ ∃ c, (ns, name, c) ∈ d) ∧
    -- A linker takes every table.
    (∃ s links, Session.linkCapabilitiesOnce (of d) = .ok (s, links) ∧
      Session.linkCapabilities (of d) = (s, links) ∧ LinkedFrom (of d) s links) := by
  have proper := Registry.proper_of d
  refine ⟨proper.override_override _ _, proper.override_self _, Registry.get?_override_eq _ _,
    Registry.namespaces_override _ _, ⟨_, (proper.override _).of_toList.symm⟩, ?commute, Registry.of_eq_iff,
    Registry.get?_of d, ?insert, ⟨Registry.ordered_keys _, fun _ => Registry.mem_namespaces_of⟩,
    fun _ => ⟨Registry.ordered_keys _, fun _ => Registry.mem_names_of⟩, ?link⟩
  case commute =>
    intro ns name c ns' name' c' differ
    exact Registry.add_comm_of d differ c c'
  case insert =>
    intro ns name c
    rw [← Registry.get?_of, Registry.of_append_singleton]
    rfl
  case link =>
    exact ⟨_, _, Session.linkCapabilitiesOnce_eq (of d), rfl, linkedFrom (of d)⟩

end Capability

end GuestHost
