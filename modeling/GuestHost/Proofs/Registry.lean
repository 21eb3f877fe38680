import GuestHost.Error
import GuestHost.Registry
import Mathlib.Data.List.Nodup

/-! Looking names up in registries: after a definition, after overrides, and in the list
of all definitions, where each name stands once. -/

namespace GuestHost.Registry

variable {α : Type}

@[simp] theorem get?_empty (ns name : String) : (empty : Registry α).get? ns name = none := by
  simp [empty, get?, space]

/-- A definition is found under its own name, and no other name is affected. -/
theorem get?_add (r : Registry α) (ns name : String) (a : α) (ns' name' : String) :
    (r.add ns name a).get? ns' name' = if ns = ns' ∧ name = name' then some a else r.get? ns' name' := by
  by_cases same : ns = ns'
  · subst same
    by_cases same : name = name'
    · simp [add, insert, get?, space, same]
    · simp [add, insert, get?, space, Std.ExtTreeMap.getElem?_insert, same]
  · simp [add, insert, get?, space, Std.ExtTreeMap.getD_insert, same]

theorem of_get?_add {r : Registry α} {ns name ns' name' : String} {a b : α}
    (found : (r.add ns name a).get? ns' name' = some b) :
    (ns', name', b) = (ns, name, a) ∨ r.get? ns' name' = some b := by
  rw [get?_add] at found
  split at found
  · next same =>
      obtain ⟨rfl, rfl⟩ := same
      cases found
      exact .inl rfl
  · exact .inr found

theorem mem_namespaces {r : Registry α} {ns : String} : ns ∈ r.namespaces ↔ ns ∈ r.spaces :=
  Std.ExtTreeMap.mem_keys

theorem not_mem_namespaces_empty {ns : String} : ns ∉ (empty : Registry α).namespaces := by
  rw [mem_namespaces]
  exact Std.ExtTreeMap.not_mem_empty

theorem mem_namespaces_add {r : Registry α} {ns name : String} {a : α} {ns' : String} :
    ns' ∈ (r.add ns name a).namespaces ↔ ns' = ns ∨ ns' ∈ r.namespaces := by
  rw [mem_namespaces, mem_namespaces, add, insert, Std.ExtTreeMap.mem_insert,
    Std.LawfulEqCmp.compare_eq_iff_eq, eq_comm]

theorem mem_namespaces_of_get? {r : Registry α} {ns name : String} {a : α}
    (found : r.get? ns name = some a) : ns ∈ r.namespaces := by
  rw [mem_namespaces]
  by_contra absent
  rw [get?, space, Std.ExtTreeMap.getD_eq_fallback absent] at found
  simp at found

/-- In a namespace of the defaults an override wins over a default. There are no others. -/
theorem get?_override (defaults overrides : Registry α) (ns name : String) :
    (defaults.override overrides).get? ns name =
      if ns ∈ defaults.namespaces then (overrides.get? ns name).or (defaults.get? ns name) else none := by
  simp only [get?, space, override, mem_namespaces, Std.ExtTreeMap.mem_iff_isSome_getElem?,
    Std.ExtTreeMap.getD_eq_getD_getElem?, Std.ExtTreeMap.getElem?_map]
  cases defaults.spaces[ns]? with
  | none => simp
  | some fs => simp [Std.ExtTreeMap.getElem?_union]

/-- The list of all definitions holds what is found by name. -/
theorem mem_toList {r : Registry α} {ns name : String} {a : α} :
    (ns, name, a) ∈ r.toList ↔ r.get? ns name = some a := by
  have entries {fs : Std.ExtTreeMap String α} :
      (ns, name, a) ∈ fs.toList.map (fun p => (ns, p.1, p.2)) ↔ fs[name]? = some a := by
    rw [← Std.ExtTreeMap.mem_toList_iff_getElem?_eq_some]
    simp
  rw [toList, List.mem_flatMap, get?, space, Std.ExtTreeMap.getD_eq_getD_getElem?]
  constructor
  · rintro ⟨⟨ns', fs⟩, hfs, among⟩
    obtain ⟨_, _, same⟩ := List.mem_map.mp among
    cases same
    rw [Std.ExtTreeMap.mem_toList_iff_getElem?_eq_some] at hfs
    rw [hfs]
    exact entries.mp among
  · intro found
    cases hfs : r.spaces[ns]? with
    | none =>
        rw [hfs] at found
        simp at found
    | some fs =>
        rw [hfs] at found
        exact ⟨(ns, fs), Std.ExtTreeMap.mem_toList_iff_getElem?_eq_some.mpr hfs, entries.mpr found⟩

/-- The names that definitions are of. -/
def keys (defs : List (String × String × α)) : List (String × String) :=
  defs.map fun (ns, name, _) => (ns, name)

/-- No two definitions in the list have the same name in the same namespace. -/
theorem nodup_keys (r : Registry α) : (keys r.toList).Nodup := by
  have listed : keys r.toList =
      r.spaces.toList.flatMap fun p => p.2.keys.map fun name => (p.1, name) := by
    simp only [keys, toList, List.map_flatMap, List.map_map, ← Std.ExtTreeMap.map_fst_toList_eq_keys]
    rfl
  rw [listed, List.nodup_flatMap]
  constructor
  · rintro ⟨ns, fs⟩ _
    have distinct : fs.keys.Nodup := by
      simpa [List.Nodup] using fs.distinct_keys
    exact distinct.map fun _ _ same => (Prod.mk.inj same).2
  · refine r.spaces.distinct_keys_toList.imp fun {x y} differ => ?_
    intro key hx hy
    obtain ⟨_, _, rfl⟩ := List.mem_map.mp hx
    obtain ⟨_, _, same⟩ := List.mem_map.mp hy
    exact differ (by simpa using (Prod.mk.inj same).1.symm)

/-! ## Many definitions -/

/-- Adds definitions one after the other; a later one replaces an earlier one. -/
def addAll (r : Registry α) (defs : List (String × String × α)) : Registry α :=
  defs.foldl (fun r (ns, name, a) => r.add ns name a) r

/-- Defines a name, or complains of it if it has a definition. -/
def define (complaint : String → String → Error) (r : Registry α) (ns name : String) (a : α) :
    Except Error (Registry α) :=
  match r.insert ns name a with
  | (none, r) => .ok r
  | (some _, _) => .error (complaint ns name)

/-- Defines names one after the other, as long as each is new. -/
def defineAll (complaint : String → String → Error) (r : Registry α)
    (defs : List (String × String × α)) : Except Error (Registry α) :=
  defs.foldlM (fun r (ns, name, a) => r.define complaint ns name a) r

variable {complaint : String → String → Error}

theorem define_eq {r : Registry α} {ns name : String} {a : α} (new : r.get? ns name = none) :
    r.define complaint ns name a = .ok (r.add ns name a) := by
  have first : r.insert ns name a = (none, r.add ns name a) := Prod.ext new rfl
  rw [define, first]

theorem get?_addAll_other {defs : List (String × String × α)} {ns name : String}
    (other : (ns, name) ∉ keys defs) (r : Registry α) :
    (r.addAll defs).get? ns name = r.get? ns name := by
  induction defs generalizing r with
  | nil => rfl
  | cons d defs ih =>
      rw [keys, List.map_cons, List.mem_cons, not_or] at other
      obtain ⟨differ, other⟩ := other
      rw [addAll, List.foldl_cons, ← addAll, ih other, get?_add, if_neg]
      rintro ⟨rfl, rfl⟩
      exact differ rfl

/-- Of definitions that are all of different names, each is found afterwards. -/
theorem get?_addAll {defs : List (String × String × α)} (distinct : (keys defs).Nodup)
    {ns name : String} {a : α} (among : (ns, name, a) ∈ defs) (r : Registry α) :
    (r.addAll defs).get? ns name = some a := by
  induction defs generalizing r with
  | nil => cases among
  | cons d defs ih =>
      obtain ⟨differ, distinct⟩ := List.nodup_cons.mp distinct
      rw [addAll, List.foldl_cons, ← addAll]
      rcases List.mem_cons.mp among with rfl | among
      · rw [get?_addAll_other differ, get?_add, if_pos ⟨rfl, rfl⟩]
      · exact ih distinct among _

/-- Definitions of different names, all of them new, are never refused. -/
theorem defineAll_eq {defs : List (String × String × α)} (distinct : (keys defs).Nodup)
    {r : Registry α} (new : ∀ ns name, (ns, name) ∈ keys defs → r.get? ns name = none) :
    r.defineAll complaint defs = .ok (r.addAll defs) := by
  induction defs generalizing r with
  | nil => rfl
  | cons d defs ih =>
      obtain ⟨ns, name, a⟩ := d
      obtain ⟨differ, distinct⟩ := List.nodup_cons.mp distinct
      rw [defineAll, List.foldlM_cons]
      dsimp only
      rw [define_eq (new ns name List.mem_cons_self)]
      refine ih distinct fun ns' name' among => ?_
      rw [get?_add, if_neg]
      · exact new ns' name' (List.mem_cons_of_mem _ among)
      · rintro ⟨rfl, rfl⟩
        exact differ among

end GuestHost.Registry
