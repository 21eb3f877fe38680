import GuestHost.Proofs.Machine.Acts
import GuestHost.Proofs.Wasm.Nesting
import GuestHost.Session.Basic

/-! Imports without a definition. A valid module is refused for the first of them, before
anything is added to the store, and for nothing else is it refused in this way. -/

namespace GuestHost

open Wasm (Module Import)

namespace Machine

/-- The first import of a module that the links have no definition for. -/
def FirstLacking (links : Links) (m : Module) (i : Import) : Prop :=
  ∃ before after, m.imports = before ++ i :: after ∧
    (∀ j ∈ before, (links.get? j.space j.name).isSome) ∧ links.get? i.space i.name = none

variable {links : Links} {m : Module} {n : String} {s s' : Store} {payload : Array UInt8}

theorem firstLacking_iff {i : Import} :
    FirstLacking links m i ↔
      m.imports.find? (fun i => (links.get? i.space i.name).isNone) = some i := by
  rw [List.find?_eq_some_iff_append, Option.isNone_iff_eq_none]
  constructor
  · rintro ⟨before, after, whole, known, lacks⟩
    exact ⟨lacks, before, after, whole, fun j among => by simpa [Option.isSome_iff_ne_none] using known j among⟩
  · rintro ⟨lacks, before, after, whole, known⟩
    refine ⟨before, after, whole, fun j among => ?_, lacks⟩
    simpa [Option.isSome_iff_ne_none] using known j among

/-- Some import is the first without a definition if any has none. -/
theorem exists_firstLacking :
    (∃ i, FirstLacking links m i) ↔ ∃ i ∈ m.imports, links.get? i.space i.name = none := by
  simp only [firstLacking_iff, ← Option.isSome_iff_exists, List.find?_isSome, Option.isNone_iff_eq_none]

theorem resolve_link :
    s.resolve links m = .error (.link n) ↔ ∃ i, FirstLacking links m i ∧ n = importName i := by
  simp only [firstLacking_iff]
  unfold Store.resolve
  cases m.imports.find? fun i => (links.get? i.space i.name).isNone with
  | some i =>
      constructor
      · intro refused
        cases refused
        exact ⟨i, rfl, rfl⟩
      · rintro ⟨_, found, rfl⟩
        cases found
        rfl
  | none =>
      constructor
      · intro refused
        dsimp only at refused
        split at refused
        · cases refused
        · cases refused
      · rintro ⟨_, found, _⟩
        cases found

theorem ofBytes?_valid {bytes : List UInt8} (read : Module.ofBytes? bytes = some m) :
    m.isValid = true :=
  (Option.filter_eq_some_iff.mp read).2

/-- The code of a module that is read can be nested, so resolving comes next. -/
theorem instantiate_eq (read : Module.ofBytes? payload.toList = some m) (s : Store) :
    s.instantiate links payload =
      match s.resolve links m with
      | .error e => (.error e, s)
      | .ok imports =>
        match s.allocate m imports ((nestedBodies? m).getD []) with
        | .error t => (.error (.instantiate t.message), s)
        | .ok (s', i) =>
          match s'.copySegments m i with
          | (some t, s') => (.error (.instantiate t.message), s')
          | (none, s') => (.ok ⟨s.instances.size, m.start.bind (i.funcs[·]?)⟩, s') := by
  obtain ⟨bodies, nested⟩ := Option.isSome_iff_exists.mp (Module.nestedBodies?_isSome (ofBytes?_valid read))
  rw [Store.instantiate, read]
  dsimp only
  rw [nested]
  rfl

/-- The payload holds a valid module that cannot be linked, and `n` names the first import
that has no definition. -/
def Unlinked (links : Links) (payload : Array UInt8) (n : String) : Prop :=
  ∃ m i, Module.ofBytes? payload.toList = some m ∧ FirstLacking links m i ∧ n = importName i

/-- A valid module can be linked unless an import of it has no definition. -/
theorem unlinked_iff (read : Module.ofBytes? payload.toList = some m) :
    (∃ n, Unlinked links payload n) ↔ ∃ i ∈ m.imports, links.get? i.space i.name = none := by
  rw [← exists_firstLacking]
  constructor
  · rintro ⟨_, m', i, read', first, _⟩
    rw [read] at read'
    cases read'
    exact ⟨i, first⟩
  · rintro ⟨i, first⟩
    exact ⟨importName i, m, i, read, first, rfl⟩

/-- What cannot be linked is refused, and the store is as it was. -/
theorem instantiate_link :
    s.instantiate links payload = (.error (.link n), s') ↔ s' = s ∧ Unlinked links payload n := by
  unfold Unlinked
  cases read : Module.ofBytes? payload.toList with
  | none =>
      rw [Store.instantiate, read]
      simp [invalidPayload]
  | some m =>
      rw [instantiate_eq read]
      cases resolved : s.resolve links m with
      | error e =>
          constructor
          · intro refused
            cases refused
            obtain ⟨i, first, name⟩ := resolve_link.mp resolved
            exact ⟨rfl, m, i, rfl, first, name⟩
          · rintro ⟨rfl, _, i, same, first, name⟩
            cases same
            rw [resolve_link.mpr ⟨i, first, name⟩] at resolved
            cases resolved
            rfl
      | ok imports =>
          constructor
          · intro refused
            dsimp only at refused
            split at refused
            · cases refused
            · split at refused
              · cases refused
              · cases refused
          · rintro ⟨rfl, _, i, same, first, name⟩
            cases same
            rw [resolve_link.mpr ⟨i, first, name⟩] at resolved
            cases resolved

/-! ## Loads of guests -/

/-- The payload that a guest's request for a module comes to, if the buffer is live and
the compiler makes something of its bytes. -/
def ordered? (env : Environment) (h : Host) (buffer : Handle) : Option (Array UInt8) :=
  let source := (h.take buffer).1
  let host := (h.take buffer).2.record (.loadIssued buffer source.toOption)
  match source with
  | .error _ => none
  | .ok source =>
    (host.compile env.compiler (.script source env.options) none).1.toOption.map Decoded.payload

theorem beginLoad_link {env : Environment} {buffer : Handle} (complete : env.links = some links) :
    beginLoad env s buffer = (.error (.link n), s') ↔
      ∃ payload, ordered? env s.host buffer = some payload ∧
        Store.instantiate { s with host := issued env s.host buffer } links payload =
          (.error (.link n), s') := by
  have missing {e : Error} := @Host.take_error s.host buffer e
  unfold beginLoad ordered? issued
  rw [complete]
  generalize s.host.take buffer = taken at missing ⊢
  obtain ⟨source, host⟩ := taken
  cases source with
  | error e =>
      cases missing rfl
      simp
  | ok source =>
      dsimp only
      generalize compiled : Host.compile _ env.compiler (.script source env.options) none = c
      obtain ⟨decoded, host⟩ := c
      cases decoded with
      | error e =>
          rcases Host.compile_error (congrArg Prod.fst compiled) with ⟨text, rfl⟩ | ⟨text, rfl⟩
          · simp [Except.toOption]
          · simp [Except.toOption]
      | ok d => simp [Except.toOption]

end Machine

end GuestHost
