import GuestHost.Capability.Default
import GuestHost.Proofs.Machine.Blindness
import GuestHost.Proofs.Machine.Growth
import GuestHost.Proofs.Registry

/-! Runs that neither store buffers nor consume any. The same handles stay live, and a buffer
changes only if the run writes to it. -/

namespace GuestHost

/-- The same handles are live, their buffers are as long as they were, and those that were
not written to hold the same bytes. -/
structure Buffers.Preserved (written : Handle → Prop) (t t' : Buffers) : Prop where
  size : ∀ k : Handle, (t'.live[k]?).map ByteArray.size = (t.live[k]?).map ByteArray.size
  bytes : ∀ k : Handle, ¬ written k → t'.live[k]? = t.live[k]?

namespace Buffers.Preserved

variable {written written' : Handle → Prop} {t t' t'' : Buffers}

theorem refl (written : Handle → Prop) (t : Buffers) : t.Preserved written t :=
  ⟨fun _ => rfl, fun _ _ => rfl⟩

theorem of_live_eq (same : t'.live = t.live) : t.Preserved written t' :=
  ⟨fun k => by rw [same], fun k _ => by rw [same]⟩

theorem trans (h : t.Preserved written t') (h' : t'.Preserved written t'') : t.Preserved written t'' :=
  ⟨fun k => (h'.size k).trans (h.size k), fun k not => (h'.bytes k not).trans (h.bytes k not)⟩

theorem mono (h : t.Preserved written t') (more : ∀ k, written k → written' k) :
    t.Preserved written' t' :=
  ⟨h.size, fun k not => h.bytes k fun wrote => not (more k wrote)⟩

/-- Where nothing was written, the live buffers are the same. -/
theorem live_eq (h : t.Preserved written t') (none : ∀ k, ¬ written k) : t'.live = t.live :=
  Std.ExtTreeMap.ext_getElem? fun k => h.bytes k (none k)

end Buffers.Preserved

/-! ## Capabilities -/

namespace Capability

open Machine (Val Failure)

/-- The default functions that store a new buffer or consume one, by namespace and name. -/
def churning : List (String × String) :=
  [("load", "load"), ("native", "stdout"), ("native", "stderr"), ("native", "to_num"),
   ("native", "to_int"), ("native", "int_to_string"), ("native", "num_to_string"),
   ("buffer", "new"), ("buffer", "drop")]

/-- The handle of the buffer that a function of buffers is called with. -/
def handle? : List Val → Option Handle
  | .i32 w :: _ => some w.toInt32
  | _ => none

/-- Storing a byte leaves every buffer its length, and all but one their bytes. -/
theorem preserved_modify (t : Buffers) (k : Handle) (i : Nat) (b : UInt8) :
    t.Preserved (k = ·) (t.modify k fun bytes => bytes.set! i b) where
  size j := by
    rw [Buffers.modify, Std.ExtTreeMap.getElem?_modify]
    split
    · next same =>
        obtain rfl := Std.LawfulEqCmp.eq_of_compare same
        rw [Option.map_map]
        congr 1
        funext bytes
        exact ByteArray.size_set! bytes i b
    · rfl
  bytes j other := by
    rw [Buffers.modify, Std.ExtTreeMap.getElem?_modify, if_neg]
    exact fun same => other (Std.LawfulEqCmp.eq_of_compare same)

/-- There are no other defaults than these. -/
theorem mem_defaults {o : Outlet} {ns name : String} {c : Capability}
    (found : (defaults o).get? ns name = some c) : (ns, name, c) ∈
      [("error", "throw", throw), ("buffer", "drop", bufferDrop), ("buffer", "size", bufferSize),
       ("buffer", "get", bufferGet), ("buffer", "set", bufferSet), ("buffer", "new", bufferNew),
       ("native", "pow", power), ("native", "num_to_string", numberText),
       ("native", "int_to_string", integerText), ("native", "to_int", toInteger),
       ("native", "to_num", toNumber), ("native", "stderr", write o .errors),
       ("native", "stdout", write o .output), ("load", "load", load)] := by
  have later {r : Registry Capability} {known : List (String × String × Capability)} {ns' name' : String}
      {a : Capability} (among : r.get? ns name = some c → (ns, name, c) ∈ known)
      (found : (r.add ns' name' a).get? ns name = some c) : (ns, name, c) ∈ (ns', name', a) :: known :=
    List.mem_cons.mpr ((Registry.of_get?_add found).imp_right among)
  unfold defaults at found
  revert found
  -- The definition made last is looked at first.
  repeat refine later ?_
  simp

theorem default_quiet {o : Outlet} {ns name : String} {c : Capability}
    (found : (defaults o).get? ns name = some c) (quiet : (ns, name) ∉ churning) :
    (ns, name) = ("buffer", "set") ∧ c = bufferSet ∨
      c = bufferGet ∨ c = bufferSize ∨ c = throw ∨ c = power := by
  have among := mem_defaults found
  simp only [List.mem_cons, List.not_mem_nil, Prod.mk.injEq, or_false] at among
  simp only [churning, List.mem_cons, List.not_mem_nil, Prod.mk.injEq, or_false, not_or] at quiet
  grind

/-- What runs leaves the host as it was. -/
def Looks (c : Capability) : Prop := ∃ f, c.action = .run f ∧ ∀ args h, ∃ r, f args h = some (r, h)

theorem bufferGet_looks : Looks bufferGet := by
  refine ⟨_, rfl, fun args h => ?_⟩
  split
  · dsimp only
    split
    · exact ⟨_, rfl⟩
    · split <;> exact ⟨_, rfl⟩
  · exact ⟨_, rfl⟩

theorem bufferSize_looks : Looks bufferSize := by
  refine ⟨_, rfl, fun args h => ?_⟩
  split
  · dsimp only
    split
    · exact ⟨_, rfl⟩
    · split <;> exact ⟨_, rfl⟩
  · exact ⟨_, rfl⟩

theorem throw_looks : Looks throw := by
  refine ⟨_, rfl, fun args h => ?_⟩
  split <;> exact ⟨_, rfl⟩

theorem power_looks : Looks power := by
  refine ⟨_, rfl, fun args h => ?_⟩
  split <;> exact ⟨_, rfl⟩

theorem bufferSet_preserves : ∃ f, bufferSet.action = .run f ∧ ∀ args h, ∃ r h', f args h = some (r, h') ∧
    Buffers.Preserved (handle? args = some ·) h.buffers h'.buffers := by
  refine ⟨_, rfl, fun args h => ?_⟩
  split
  · next w _ _ =>
      dsimp only
      split
      · exact ⟨_, _, rfl, .refl _ _⟩
      · split
        · exact ⟨_, _, rfl, (preserved_modify _ _ _ _).mono fun k same => congrArg some same⟩
        · exact ⟨_, _, rfl, .refl _ _⟩
  · exact ⟨_, _, rfl, .refl _ _⟩

/-- A default that neither stores a buffer nor consumes one writes to the buffer it is
called with, if it is the one to write, and leaves all others alone. -/
theorem default_preserves {o : Outlet} {ns name : String} {c : Capability}
    (found : (defaults o).get? ns name = some c) (quiet : (ns, name) ∉ churning) :
    ∃ f, c.action = .run f ∧ ∀ args h, ∃ r h', f args h = some (r, h') ∧
      Buffers.Preserved (fun k => (ns, name) = ("buffer", "set") ∧ handle? args = some k)
        h.buffers h'.buffers := by
  have looks : ∀ {c}, Looks c → ∃ f, c.action = .run f ∧ ∀ args h, ∃ r h', f args h = some (r, h') ∧
      Buffers.Preserved (fun k => (ns, name) = ("buffer", "set") ∧ handle? args = some k)
        h.buffers h'.buffers := by
    rintro c ⟨f, action, same⟩
    refine ⟨f, action, fun args h => ?_⟩
    obtain ⟨r, ran⟩ := same args h
    exact ⟨r, h, ran, .refl _ _⟩
  rcases default_quiet found quiet with ⟨set, rfl⟩ | rfl | rfl | rfl | rfl
  · obtain ⟨f, action, preserves⟩ := bufferSet_preserves
    refine ⟨f, action, fun args h => ?_⟩
    obtain ⟨r, h', ran, preserved⟩ := preserves args h
    exact ⟨r, h', ran, preserved.mono fun k same => ⟨set, same⟩⟩
  · exact looks bufferGet_looks
  · exact looks bufferSize_looks
  · exact looks throw_looks
  · exact looks power_looks

end Capability

/-! ## Steps -/

namespace Machine

/-- The function that is linked under a name is being entered with arguments. -/
def State.Enters (env : Environment) (m : State) (name : String × String) (args : List Val) : Prop :=
  ∃ func, m.control = .enter func args ∧
    (env.links.getD .empty).get? name.1 name.2 = some (.func func)

/-- A byte is being stored in the buffer of a handle. -/
def State.Writes (env : Environment) (m : State) (k : Handle) : Prop :=
  ∃ args, m.Enters env ("buffer", "set") args ∧ Capability.handle? args = some k

/-- The functions of the host are defaults, and linked under their names. -/
def Backed (links : Links) (s : Store) : Prop :=
  ∀ ⦃a c⦄, s.funcs[a]? = some (.host c) → ∃ o ns name,
    (Capability.defaults o).get? ns name = some c ∧ links.get? ns name = some (.func a)

variable {env : Environment} {m : State}

/-- A step that does not enter a function of the host leaves the buffers alone. -/
theorem step_buffers
    (guest : ∀ func args, m.control = .enter func args → ∀ c, m.store.funcs[func]? ≠ some (.host c)) :
    (step env m).store.host.buffers = m.store.host.buffers := by
  -- Replacing the buffers by those that are there changes nothing, before or after the step.
  let F (h : Host) : Host := { h with buffers := m.store.host.buffers }
  have blind : Blind F := ⟨fun _ _ => rfl, fun _ => rfl, fun _ _ => rfl⟩
  have same : step env m = (step env m).mapHost F := step_blind blind env env guest
  rw [same]
  cases step env m with
  | next m' => rfl
  | finished r s => rfl

/-- A step that neither stores a buffer nor consumes one changes no buffer but the one that
it writes to. -/
theorem step_preserves (backed : Backed (env.links.getD .empty) m.store)
    (quiet : ∀ name args, m.Enters env name args → name ∉ Capability.churning) :
    m.store.host.buffers.Preserved (m.Writes env) (step env m).store.host.buffers := by
  by_cases guest : ∀ func args, m.control = .enter func args →
      ∀ c, m.store.funcs[func]? ≠ some (.host c)
  · rw [step_buffers guest]
    exact .refl _ _
  · push Not at guest
    obtain ⟨func, args, entered, c, found⟩ := guest
    obtain ⟨o, ns, name, provided, linked⟩ := backed found
    obtain ⟨f, action, preserves⟩ :=
      Capability.default_preserves provided (quiet (ns, name) args ⟨func, entered, linked⟩)
    obtain ⟨s, control, ws⟩ := m
    cases entered
    obtain ⟨r, left, acted, preserved⟩ := preserves args { s.host with trace := #[] }
    have ran : c.run f args s.host = some (r.bind c.checked, Capability.hostAfter s.host left) :=
      Capability.run_eq_some.mpr ⟨r, left, acted, rfl, rfl⟩
    have buffers : (step env ⟨s, .enter func args, ws⟩).store.host.buffers = left.buffers := by
      simp only [step, enter, found, action, ran]
      cases r.bind c.checked with
      | ok vals => rfl
      | error e => exact fail_buffers _ _ _
    rw [buffers]
    refine preserved.mono ?_
    rintro k ⟨set, handle⟩
    exact ⟨args, ⟨func, rfl, set ▸ linked⟩, handle⟩

/-- The functions of the host stay the same, for no others are ever added. -/
theorem backed_lasting (env : Environment) (links : Links) :
    Session.Lasting env fun s s' => Backed links s → Backed links s' :=
  (hosts_lasting env).preserves fun same backed _ _ found => backed (same found)

/-- A run that neither stores a buffer nor consumes one changes no buffers but those that
it writes to. -/
theorem run_preserves {n : Nat} {r : Except Failure (List Val)} {s : Store} {written : Handle → Prop}
    (backed : Backed (env.links.getD .empty) m.store)
    (quiet : ∀ m', Reaches env m m' →
      ∀ name args, m'.Enters env name args → name ∉ Capability.churning)
    (writes : ∀ m', Reaches env m m' → ∀ k, m'.Writes env k → written k)
    (ended : run env n m = some (r, s)) : m.store.host.buffers.Preserved written s.host.buffers := by
  induction n generalizing m with
  | zero => cases ended
  | succ n ih =>
      have first := (step_preserves backed (quiet m .refl)).mono (writes m .refl)
      rw [run] at ended
      split at ended
      · next m' next =>
          rw [next] at first
          have later {m''} (reached : Reaches env m' m'') : Reaches env m m'' := .head next reached
          have still := (backed_lasting env (env.links.getD .empty)).toLasting.step m
          rw [next] at still
          exact first.trans (ih (still backed) (fun _ reached => quiet _ (later reached))
            (fun _ reached => writes _ (later reached)) ended)
      · next ended' =>
          rw [ended'] at first
          cases ended
          exact first

end Machine

end GuestHost
