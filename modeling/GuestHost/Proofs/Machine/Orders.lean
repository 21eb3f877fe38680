import GuestHost.Proofs.Machine.Resolution
import GuestHost.Proofs.Session.Guest

/-! A guest asks for a module. The step that it does so in consumes the buffer; the guest waits
while the module's start function runs, and goes on with the entry of the new instance or not
at all. -/

namespace GuestHost.Machine

open Relation (ReflTransGen)

variable {env : Environment} {m m' m₁ m₂ : State} {k : Handle}

/-! ## Consumption -/

theorem endLoad_buffers (s : Store) (inst : Nat) (ws : List Waiting) :
    (endLoad s inst ws).store.host.buffers = s.host.buffers := by
  unfold endLoad
  dsimp only
  split
  · rfl
  · exact failLoad_buffers _ _ _

/-- Whatever becomes of a request for a module, the buffer is no longer live, and no other is
touched. -/
theorem step_consumes (ordered : m.order? = some k) :
    (step env m).store.host.buffers.live = m.store.host.buffers.live.erase k := by
  have begun {r : Except Error Ready} {s : Store} (begun : beginLoad env m.store k = (r, s)) :
      s.host.buffers.live = m.store.host.buffers.live.erase k := by
    rw [beginLoad_host begun, issued_eq]
  rw [step_ordered ordered]
  split
  · next rejected => rw [failLoad_buffers, begun rejected]
  · next completed => rw [endLoad_buffers, begun completed]
  · next started => exact begun started

theorem beginLoad_dead {s : Store} (dead : s.host.buffers.live[k]? = none) :
    beginLoad env s k = (.error (.invalidBuffer k), s.record (.loadIssued k none)) := by
  rw [beginLoad, Host.take, Buffers.take, dead]
  rfl

/-- A request that names no live buffer fails at once; the compiler is not asked. -/
theorem step_dead (ordered : m.order? = some k) (dead : m.store.host.buffers.live[k]? = none) :
    step env m = failLoad (m.store.record (.loadIssued k none)) m.waiting (.invalidBuffer k) := by
  rw [step_ordered ordered, beginLoad_dead dead]

/-- A handle comes to life in a run where a function of the host other than one that loads
returns. -/
theorem step_revives (next : step env m = .next m') (dead : m.store.host.buffers.live[k]? = none)
    (live : m'.store.host.buffers.live[k]? ≠ none) : ∃ vals host, Serves m (.ok vals) host := by
  have erased (k' : Handle) : (m.store.host.buffers.live.erase k')[k]? = none := by
    rw [Std.ExtTreeMap.getElem?_erase, dead, ite_self]
  have turn := step_turn env m
  have begun {k' : Handle} (ordered : m.order? = some k') : False := by
    have consumed : (step env m).store.host.buffers.live = _ := step_consumes ordered
    rw [next] at consumed
    exact live (consumed ▸ erased k')
  rw [next] at turn
  cases turn with
  | moves _ edited _ =>
      rcases edited with rfl | edit
      · exact absurd dead live
      · rw [edit.host_eq] at live
        exact absurd dead live
  | answers serves => exact ⟨_, _, serves⟩
  | starts ordered _ => exact (begun ordered).elim
  | returns completed _ =>
      rcases State.completed?_eq_some completed with ⟨_, ordered, _⟩ | ⟨_, _, _, rfl⟩
      · exact (begun ordered).elim
      · exact absurd dead live

/-! ## What is compiled -/

theorem compile_eq_ok {h : Host} {c : Compiler} {r : Request} {payload : Array UInt8} :
    (h.compile c r none).1.toOption.map Decoded.payload = some payload ↔
      ∃ o, c.answerAt h.requests r = .ok o ∧ o.error = none ∧ o.payload = payload := by
  unfold Host.compile
  cases c.answerAt h.requests r with
  | error text => simp [Except.toOption]
  | ok o =>
      obtain ⟨error, payload', listing, sourceMap⟩ := o
      cases error with
      | none =>
          change some payload' = some payload ↔ _
          simp
      | some text =>
          change none = some payload ↔ _
          simp

/-- What a guest asks for is made of the bytes in the buffer, as they are when it asks. -/
theorem ordered?_eq_some {h : Host} {payload : Array UInt8} :
    ordered? env h k = some payload ↔ ∃ source o, h.buffers.live[k]? = some ⟨source⟩ ∧
      env.compiler.answerAt h.requests (.script source env.options) = .ok o ∧ o.error = none ∧
      o.payload = payload := by
  unfold ordered? Host.take Buffers.take
  cases found : h.buffers.live[k]? with
  | none => simp [Except.map]
  | some source =>
      dsimp only [Except.map]
      rw [compile_eq_ok, Host.requests_record rfl]
      simp [Host.requests, ByteArray.ext_iff]

theorem beginLoad_ok {s s' : Store} {ready : Ready} (begun : beginLoad env s k = (.ok ready, s')) :
    ∃ links payload, env.links = some links ∧ ordered? env s.host k = some payload ∧
      Store.instantiate { s with host := issued env s.host k } links payload = (.ok ready, s') := by
  unfold beginLoad at begun
  unfold ordered? issued
  generalize s.host.take k = taken at begun ⊢
  obtain ⟨source, host⟩ := taken
  cases source with
  | error e => cases begun
  | ok source =>
      cases complete : env.links with
      | none =>
          rw [complete] at begun
          cases begun
      | some links =>
          rw [complete] at begun
          dsimp only at begun ⊢
          generalize compiled : Host.compile _ env.compiler (.script source env.options) none = c at begun ⊢
          obtain ⟨decoded, host⟩ := c
          cases decoded with
          | error e => cases begun
          | ok d => exact ⟨links, d.payload, rfl, rfl, begun⟩

/-! ## While a guest waits -/

/-- The module that is asked for in `m` is being brought to life in `m'`: its start function
runs, and the guest that asked waits. -/
inductive During (env : Environment) (m : State) (inst : Nat) : State → Prop
  | start {k : Handle} {start : Nat} {s : Store} (ordered : m.order? = some k)
      (begun : beginLoad env m.store k = (.ok ⟨inst, some start⟩, s)) :
      During env m inst ⟨s, .enter start [], .loading inst :: m.waiting⟩
  | step {m₁ m₂ : State} (earlier : During env m inst m₁) (next : step env m₁ = .next m₂)
      (above : List Waiting) (waits : m₂.waiting = above ++ .loading inst :: m.waiting) :
      During env m inst m₂

/-- The module that is asked for in `m` is complete, and its entry handed to the guest. -/
inductive Answers (env : Environment) (m : State) : State → Prop
  | intro {last : State} {inst a : Nat} {s : Store} (waited : last = m ∨ During env m inst last)
      (completed : last.completed? env = some (s, inst, m.waiting))
      (entry : s.exportedFunc? inst entryName = some a) :
      Answers env m ⟨(s.mapHost Host.addInstance).mapHost fun h => h.addNestedLoad a,
        .leave [.ref (some a)], m.waiting⟩

theorem During.waits {inst : Nat} (during : During env m inst m') :
    ∃ above, m'.waiting = above ++ .loading inst :: m.waiting := by
  cases during with
  | start => exact ⟨[], rfl⟩
  | step _ _ above waits => exact ⟨above, waits⟩

/-- The instance was begun, and the run went on from there. -/
theorem During.begun {inst : Nat} (during : During env m inst m') :
    ∃ k start s, m.order? = some k ∧ beginLoad env m.store k = (.ok ⟨inst, some start⟩, s) ∧
      Reaches env ⟨s, .enter start [], .loading inst :: m.waiting⟩ m' := by
  induction during with
  | start ordered begun => exact ⟨_, _, _, ordered, begun, .refl⟩
  | step _ next _ _ ih =>
      obtain ⟨k, start, s, ordered, begun, reached⟩ := ih
      exact ⟨k, start, s, ordered, begun, reached.tail next⟩

/-- A step while a guest waits does not concern it, or answers it. -/
theorem During.next {inst : Nat} (during : During env m inst m₁) (next : Machine.step env m₁ = .next m₂) :
    During env m inst m₂ ∨ Answers env m m₂ := by
  obtain ⟨above, waits⟩ := during.waits
  have turn := step_turn env m₁
  rw [next] at turn
  cases turn with
  | moves _ _ calls =>
      generalize m₁.waiting = ws at waits calls
      cases calls with
      | stay => exact .inl (during.step next above waits)
      | push f => exact .inl (during.step next (.caller f :: above) (by rw [waits]; rfl))
      | pop f =>
          cases above with
          | nil => cases waits
          | cons w above => exact .inl (during.step next above (List.cons.inj waits).2)
  | answers _ => exact .inl (during.step next above waits)
  | starts _ _ => exact .inl (during.step next (.loading _ :: above) (by rw [waits]; rfl))
  | returns completed entry =>
      rcases State.completed?_eq_some completed with ⟨_, _, _, rfl⟩ | ⟨_, _, waiting, _⟩
      · exact .inl (during.step next above waits)
      · rw [waits] at waiting
        cases above with
        | nil =>
            cases waiting
            exact .inr (.intro (.inr during) completed entry)
        | cons w above => exact .inl (during.step next above (List.cons.inj waiting).2.symm)

/-- The step that a module is asked for in goes on to its start function, or answers. -/
theorem State.order?_next (ordered : m.order? = some k) (next : step env m = .next m₂) :
    (∃ inst, During env m inst m₂) ∨ Answers env m m₂ := by
  have turn := step_turn env m
  rw [next] at turn
  cases turn with
  | moves idle _ _ => cases ordered.symm.trans idle.order
  | answers serves =>
      obtain ⟨_, _, c, f, entered, found, runs, _⟩ := serves
      obtain ⟨_, _, _, entered', found', loads, _⟩ := order?_eq_some.mp ordered
      cases entered.symm.trans entered'
      cases found.symm.trans found'
      cases runs.symm.trans loads
  | starts ordered begun => exact .inl ⟨_, .start ordered begun⟩
  | returns completed entry =>
      rcases completed?_eq_some completed with ⟨_, _, _, rfl⟩ | ⟨_, left, _⟩
      · exact .inr (.intro (.inl rfl) completed entry)
      · obtain ⟨_, _, _, entered, _⟩ := order?_eq_some.mp ordered
        cases left.symm.trans entered

/-- All that comes after a request for a module comes after its answer, but for what the start
function of the module does. -/
theorem reaches_answered (ordered : m.order? = some k) (reached : Reaches env m m₂) :
    m₂ = m ∨ (∃ inst, During env m inst m₂) ∨ ∃ m', Answers env m m' ∧ Reaches env m' m₂ := by
  induction reached with
  | refl => exact .inl rfl
  | tail _ next ih =>
      rcases ih with rfl | ⟨inst, during⟩ | ⟨m', answers, reached⟩
      · rcases State.order?_next ordered next with during | answers
        · exact .inr (.inl during)
        · exact .inr (.inr ⟨_, answers, .refl⟩)
      · rcases during.next next with during | answers
        · exact .inr (.inl ⟨inst, during⟩)
        · exact .inr (.inr ⟨_, answers, .refl⟩)
      · exact .inr (.inr ⟨m', answers, reached.tail next⟩)

/-- What is complete when a guest is answered is the instance that was begun when it asked. -/
theorem Answers.begun (ordered : m.order? = some k) (answers : Answers env m m') :
    ∃ ready s a, beginLoad env m.store k = (.ok ready, s) ∧ Becomes env s m'.store ∧
      m'.control = .leave [.ref (some a)] ∧ m'.waiting = m.waiting ∧
      m'.store.exportedFunc? ready.inst entryName = some a := by
  obtain ⟨func, w, c, entered, _⟩ := State.order?_eq_some.mp ordered
  cases answers with
  | @intro last inst a s waited completed entry =>
      have counted : Becomes env s ((s.mapHost Host.addInstance).mapHost fun h => h.addNestedLoad a) :=
        .host .start _
      rcases waited with rfl | during
      · rcases State.completed?_eq_some completed with ⟨_, ordered', begun, _⟩ | ⟨_, left, _⟩
        · cases ordered.symm.trans ordered'
          exact ⟨_, s, a, begun, counted, rfl, rfl, entry⟩
        · cases left.symm.trans entered
      · obtain ⟨above, waits⟩ := during.waits
        obtain ⟨_, start, t, ordered', begun, reached⟩ := during.begun
        cases ordered.symm.trans ordered'
        have ran : Becomes env t last.store := (becomes_lasting env).toLasting.reached reached
        rcases State.completed?_eq_some completed with ⟨_, _, _, same⟩ | ⟨_, _, waiting, rfl⟩
        · have longer := congrArg List.length (same.trans waits)
          simp at longer
          omega
        · exact ⟨_, t, a, begun, (becomes_lasting env).trans ran counted, rfl, rfl, entry⟩

end GuestHost.Machine
