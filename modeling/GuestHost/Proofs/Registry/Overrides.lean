import GuestHost.Proofs.Registry
import GuestHost.Proofs.Utf8.Order
import Mathlib.Data.List.Induction

/-! Registries that definitions were put into one after the other. Such a registry is settled by the
last definition of each name, which makes equalities between registries a matter of looking names
up; overrides stay among these registries. -/

namespace GuestHost.Registry

variable {α : Type}

/-! ## Equality -/

/-- Every namespace defines something. -/
def Proper (r : Registry α) : Prop := ∀ ns ∈ r.namespaces, ∃ name a, r.get? ns name = some a

theorem proper_empty : (empty : Registry α).Proper := fun _ among =>
  absurd among not_mem_namespaces_empty

theorem Proper.add {r : Registry α} (proper : r.Proper) (ns name : String) (a : α) :
    (r.add ns name a).Proper := by
  intro ns' among
  rcases mem_namespaces_add.mp among with rfl | among
  · exact ⟨name, a, by rw [get?_add, if_pos ⟨rfl, rfl⟩]⟩
  · obtain ⟨name', b, found⟩ := proper ns' among
    by_cases same : ns = ns' ∧ name = name'
    · exact ⟨name', a, by rw [get?_add, if_pos same]⟩
    · exact ⟨name', b, by rw [get?_add, if_neg same, found]⟩

theorem Proper.addAll {r : Registry α} (proper : r.Proper) (defs : List (String × String × α)) :
    (r.addAll defs).Proper := by
  induction defs generalizing r with
  | nil => exact proper
  | cons d defs ih => exact ih (proper.add _ _ _)

theorem namespaces_override (r s : Registry α) : (r.override s).namespaces = r.namespaces :=
  Std.ExtTreeMap.keys_map

theorem Proper.override {r : Registry α} (proper : r.Proper) (s : Registry α) :
    (r.override s).Proper := by
  intro ns among
  rw [namespaces_override] at among
  obtain ⟨name, a, found⟩ := proper ns among
  refine ⟨name, (s.get? ns name).getD a, ?_⟩
  rw [get?_override, if_pos among, found]
  cases s.get? ns name <;> rfl

/-- Registries without empty namespaces are equal if they define the same names alike. -/
theorem Proper.ext {r s : Registry α} (proper : r.Proper) (proper' : s.Proper)
    (alike : ∀ ns name, r.get? ns name = s.get? ns name) : r = s := by
  have shared {r s : Registry α} (proper : r.Proper) (alike : ∀ ns name, r.get? ns name = s.get? ns name)
      {ns : String} (among : ns ∈ r.spaces) : ns ∈ s.spaces := by
    obtain ⟨name, a, found⟩ := proper ns (mem_namespaces.mpr among)
    exact mem_namespaces.mp (mem_namespaces_of_get? ((alike ns name).symm.trans found))
  have spaces : r.spaces = s.spaces := by
    refine Std.ExtTreeMap.ext_getElem? fun ns => ?_
    by_cases among : ns ∈ r.spaces
    · have among' := shared proper alike among
      have same : r.space ns = s.space ns := Std.ExtTreeMap.ext_getElem? fun name => alike ns name
      rw [space, space, Std.ExtTreeMap.getD_eq_getD_getElem?, Std.ExtTreeMap.getD_eq_getD_getElem?,
        Std.ExtTreeMap.getElem?_eq_some_getElem among, Std.ExtTreeMap.getElem?_eq_some_getElem among'] at same
      rw [Std.ExtTreeMap.getElem?_eq_some_getElem among, Std.ExtTreeMap.getElem?_eq_some_getElem among']
      exact congrArg some same
    · have among' : ns ∉ s.spaces := fun among' =>
        among (shared proper' (fun ns name => (alike ns name).symm) among')
      rw [Std.ExtTreeMap.getElem?_eq_none among, Std.ExtTreeMap.getElem?_eq_none among']
  cases r
  cases s
  exact congrArg Registry.mk spaces

/-! ## Definitions one after the other -/

/-- The registry that some definitions make. -/
def of (defs : List (String × String × α)) : Registry α := empty.addAll defs

/-- The last definition of a name. -/
def last? (defs : List (String × String × α)) (ns name : String) : Option α :=
  ((defs.filter fun (ns', name', _) => ns' = ns ∧ name' = name).getLast?).map fun (_, _, a) => a

theorem last?_append_singleton (defs : List (String × String × α)) (ns name : String) (a : α)
    (ns' name' : String) :
    last? (defs ++ [(ns, name, a)]) ns' name' =
      if ns = ns' ∧ name = name' then some a else last? defs ns' name' := by
  rw [last?, List.filter_append]
  by_cases same : ns = ns' ∧ name = name'
  · rw [if_pos same, List.filter_cons_of_pos (by simpa using same)]
    simp
  · rw [if_neg same, List.filter_cons_of_neg (by simpa using same)]
    simp [last?]

theorem of_append_singleton (defs : List (String × String × α)) (ns name : String) (a : α) :
    of (defs ++ [(ns, name, a)]) = (of defs).add ns name a := by
  rw [of, addAll, List.foldl_append]
  rfl

theorem proper_of (defs : List (String × String × α)) : (of defs).Proper := proper_empty.addAll defs

/-- What is found under a name is what was defined last. -/
theorem get?_of (defs : List (String × String × α)) (ns name : String) :
    (of defs).get? ns name = last? defs ns name := by
  induction defs using List.reverseRecOn with
  | nil => exact get?_empty ns name
  | append_singleton defs d ih => rw [of_append_singleton, last?_append_singleton, get?_add, ih]

theorem last?_eq_none_iff {defs : List (String × String × α)} {ns name : String} :
    last? defs ns name = none ↔ ∀ a, (ns, name, a) ∉ defs := by
  rw [last?, Option.map_eq_none_iff, List.getLast?_eq_none_iff, List.filter_eq_nil_iff]
  constructor
  · intro none a among
    exact none _ among (decide_eq_true ⟨rfl, rfl⟩)
  · rintro absent ⟨ns', name', a⟩ among same
    obtain ⟨rfl, rfl⟩ := of_decide_eq_true same
    exact absent a among

theorem mem_namespaces_of {defs : List (String × String × α)} {ns : String} :
    ns ∈ (of defs).namespaces ↔ ∃ name a, (ns, name, a) ∈ defs := by
  constructor
  · intro among
    obtain ⟨name, a, found⟩ := proper_of defs ns among
    by_contra absent
    rw [get?_of, last?_eq_none_iff.mpr fun b among => absent ⟨name, b, among⟩] at found
    cases found
  · rintro ⟨name, a, among⟩
    cases found : (of defs).get? ns name with
    | some b => exact mem_namespaces_of_get? found
    | none =>
        rw [get?_of, last?_eq_none_iff] at found
        exact absurd among (found a)

theorem mem_names {r : Registry α} {ns name : String} :
    name ∈ r.names ns ↔ (r.get? ns name).isSome := by
  rw [names, Std.ExtTreeMap.mem_keys, Std.ExtTreeMap.mem_iff_isSome_getElem?, get?]

theorem mem_names_of {defs : List (String × String × α)} {ns name : String} :
    name ∈ (of defs).names ns ↔ ∃ a, (ns, name, a) ∈ defs := by
  rw [mem_names, get?_of, Option.isSome_iff_ne_none, ne_eq, last?_eq_none_iff, not_forall_not]

/-- A registry is settled by the last definition of each name. -/
theorem of_eq_iff {defs defs' : List (String × String × α)} :
    of defs = of defs' ↔ ∀ ns name, last? defs ns name = last? defs' ns name := by
  simp only [← get?_of]
  exact ⟨fun same ns name => by rw [same], (proper_of defs).ext (proper_of defs')⟩

/-- Definitions of different names may be made in either order. -/
theorem add_comm_of (defs : List (String × String × α)) {ns name ns' name' : String}
    (differ : (ns, name) ≠ (ns', name')) (a b : α) :
    ((of defs).add ns name a).add ns' name' b = ((of defs).add ns' name' b).add ns name a := by
  have proper (ns name : String) (a : α) : ((of defs).add ns name a).Proper := (proper_of defs).add ns name a
  refine ((proper ns name a).add ns' name' b).ext ((proper ns' name' b).add ns name a) fun ns'' name'' => ?_
  rw [get?_add, get?_add, get?_add, get?_add]
  by_cases first : ns = ns'' ∧ name = name''
  · obtain ⟨rfl, rfl⟩ := first
    have other : ¬ (ns' = ns ∧ name' = name) := fun same => differ (by rw [same.1, same.2])
    rw [if_neg other, if_pos ⟨rfl, rfl⟩, if_pos ⟨rfl, rfl⟩]
  · rw [if_neg first, if_neg first]

/-- Every definition of a registry, put over those of another. -/
theorem get?_addAll_toList (r s : Registry α) (ns name : String) :
    (r.addAll s.toList).get? ns name = (s.get? ns name).or (r.get? ns name) := by
  cases found : s.get? ns name with
  | some a => exact get?_addAll s.nodup_keys (mem_toList.mpr found) r
  | none =>
      refine get?_addAll_other (fun among => ?_) r
      obtain ⟨⟨_, _, a⟩, among, same⟩ := List.mem_map.mp among
      cases same
      rw [mem_toList, found] at among
      cases among

/-- What defines everything once is a list of the definitions themselves. -/
theorem Proper.of_toList {r : Registry α} (proper : r.Proper) : of r.toList = r := by
  refine (proper_of _).ext proper fun ns name => ?_
  rw [of, get?_addAll_toList, get?_empty, Option.or_none]

/-! ## Overrides -/

/-- An override is found in the namespaces that there were, and elsewhere what there was. -/
theorem get?_override_eq (r s : Registry α) (ns name : String) :
    (r.override s).get? ns name =
      if ns ∈ r.namespaces ∧ (s.get? ns name).isSome then s.get? ns name else r.get? ns name := by
  rw [get?_override]
  by_cases among : ns ∈ r.namespaces
  · cases s.get? ns name <;> simp [among]
  · cases found : r.get? ns name with
    | none => simp [among]
    | some a => exact absurd (mem_namespaces_of_get? found) among

/-- Overrides of overrides are put over one another first. -/
theorem Proper.override_override {r : Registry α} (proper : r.Proper) (s t : Registry α) :
    (r.override s).override t = r.override (s.addAll t.toList) := by
  refine ((proper.override s).override t).ext (proper.override _) fun ns name => ?_
  rw [get?_override, get?_override, get?_override, namespaces_override, get?_addAll_toList]
  split
  · rw [Option.or_assoc]
  · rfl

theorem Proper.override_self {r : Registry α} (proper : r.Proper) (s : Registry α) :
    (r.override s).override s = r.override s := by
  refine ((proper.override s).override s).ext (proper.override s) fun ns name => ?_
  rw [get?_override, get?_override, namespaces_override]
  split
  · rw [← Option.or_assoc, Option.or_self]
  · rfl

/-! ## Order -/

/-- The names in a list stand in the order of their bytes, each once. -/
def Ordered (names : List String) : Prop :=
  names.Pairwise fun s t => (Utf8.encode s).toList < (Utf8.encode t).toList

theorem ordered_keys {β : Type} (m : Std.ExtTreeMap String β) : Ordered m.keys :=
  m.ordered_keys.imp fun less => Utf8.encode_lt.mpr (compare_lt_iff_lt.mp less)

end GuestHost.Registry
