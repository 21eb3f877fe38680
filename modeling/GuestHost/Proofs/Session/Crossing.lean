import GuestHost.Proofs.Session.Guest
import GuestHost.Proofs.Session.Layout
import GuestHost.Proofs.Support.Calls
import GuestHost.Proofs.Support.Standing

/-! Crossing the boundary by way of the support instance. What a helper answers is what
its work comes to, so the host's side can be followed on the instance's space alone. -/

namespace GuestHost

open Machine
open Support (Place Space Call Work)

/-- Work that runs guest code ends with a result and a store, for every bound on the
steps of its runs that is large enough. -/
def Comes {α : Type} (work : Nat → Guest α) (s : Store) (r : Except Error α) (s' : Store) : Prop :=
  ∃ n, ∀ fuel ≥ n, (work fuel).run s = some (r, s')

namespace Comes

variable {α β : Type} {s s₁ s₂ : Store}

/-- Work that runs nothing needs no steps. -/
theorem now {work : Nat → Guest α} {r : Except Error α}
    (h : ∀ fuel, (work fuel).run s = some (r, s₁)) : Comes work s r s₁ :=
  ⟨0, fun fuel _ => h fuel⟩

theorem bind {first : Nat → Guest α} {rest : Nat → α → Guest β} {a : α} {r : Except Error β}
    (h : Comes first s (.ok a) s₁) (h' : Comes (fun fuel => rest fuel a) s₁ r s₂) :
    Comes (fun fuel => first fuel >>= rest fuel) s r s₂ := by
  obtain ⟨n, h⟩ := h
  obtain ⟨k, h'⟩ := h'
  refine ⟨max n k, fun fuel hf => ?_⟩
  rw [Guest.run_bind, h fuel (Nat.le_trans (Nat.le_max_left n k) hf)]
  exact h' fuel (Nat.le_trans (Nat.le_max_right n k) hf)

theorem bind_error {first : Nat → Guest α} {e : Error} (h : Comes first s (.error e) s₁)
    (rest : Nat → α → Guest β) : Comes (fun fuel => first fuel >>= rest fuel) s (.error e) s₁ := by
  obtain ⟨n, h⟩ := h
  refine ⟨n, fun fuel hf => ?_⟩
  rw [Guest.run_bind, h fuel hf]
  rfl

theorem map {work : Nat → Guest α} {a : α} (f : α → β) (h : Comes work s (.ok a) s₁) :
    Comes (fun fuel => f <$> work fuel) s (.ok (f a)) s₁ := by
  obtain ⟨n, h⟩ := h
  refine ⟨n, fun fuel hf => ?_⟩
  change ((work fuel).run s).bind _ = _
  rw [h fuel hf]
  rfl

/-- Work that succeeds needs nobody to catch it. -/
theorem tryCatch {work : Nat → Guest α} {handler : Error → Guest α} {a : α}
    (h : Comes work s (.ok a) s₁) :
    Comes (fun fuel => MonadExcept.tryCatch (work fuel) handler) s (.ok a) s₁ := by
  obtain ⟨n, h⟩ := h
  refine ⟨n, fun fuel hf => ?_⟩
  change ((work fuel).run s).bind _ = _
  rw [h fuel hf]
  rfl

end Comes

/-- From some bound on the steps of its runs on there is no end of the work. -/
def Never {α : Type} (work : Nat → Guest α) (s : Store) : Prop :=
  ∃ n, ∀ fuel ≥ n, (work fuel).run s = none

namespace Never

variable {α β : Type} {s s₁ : Store}

theorem bind {first : Nat → Guest α} (h : Never first s) (rest : Nat → α → Guest β) :
    Never (fun fuel => first fuel >>= rest fuel) s := by
  obtain ⟨n, h⟩ := h
  exact ⟨n, fun fuel hf => by rw [Guest.run_bind, h fuel hf, Option.bind_none]⟩

theorem after {first : Nat → Guest α} {rest : Nat → α → Guest β} {a : α} (h : Comes first s (.ok a) s₁)
    (h' : Never (fun fuel => rest fuel a) s₁) : Never (fun fuel => first fuel >>= rest fuel) s := by
  obtain ⟨n, h⟩ := h
  obtain ⟨k, h'⟩ := h'
  refine ⟨max n k, fun fuel hf => ?_⟩
  rw [Guest.run_bind, h fuel (Nat.le_trans (Nat.le_max_left n k) hf)]
  exact h' fuel (Nat.le_trans (Nat.le_max_right n k) hf)

theorem not_comes {work : Nat → Guest α} {r : Except Error α} (h : Never work s) : ¬ Comes work s r s₁ := by
  rintro ⟨k, comes⟩
  obtain ⟨n, h⟩ := h
  cases (h _ (Nat.le_max_left n k)).symm.trans (comes _ (Nat.le_max_right n k))

end Never

/-- Work comes to an answer of some kind, or to an error of some kind. Where it is stuck for want of
a handle it never ends. -/
inductive Settles {α : Type} (work : Nat → Guest α) (s : Store) (kind : Error → Prop) (stuck : Prop)
    (Q : α → Store → Prop) : Prop
  | done {a : α} {t : Store} (comes : Comes work s (.ok a) t) (holds : Q a t)
  | failed {e : Error} {t : Store} (comes : Comes work s (.error e) t) (of_kind : kind e)
  | never (full : stuck) (never : Never work s)

namespace Settles

variable {α β : Type} {s : Store} {kind : Error → Prop} {stuck : Prop} {Q : α → Store → Prop}
  {Q' : β → Store → Prop}

theorem pure {a : α} (holds : Q a s) : Settles (fun _ => Pure.pure a) s kind stuck Q :=
  .done (.now fun _ => rfl) holds

theorem throw {e : Error} (of_kind : kind e) :
    Settles (fun _ => (MonadExcept.throw e : Guest α)) s kind stuck Q :=
  .failed (.now fun _ => rfl) of_kind

theorem bind {first : Nat → Guest α} {rest : Nat → α → Guest β} (h : Settles first s kind stuck Q)
    (h' : ∀ a t, Q a t → Settles (fun fuel => rest fuel a) t kind stuck Q') :
    Settles (fun fuel => first fuel >>= rest fuel) s kind stuck Q' := by
  cases h with
  | done comes holds =>
      cases h' _ _ holds with
      | done comes' holds' => exact .done (comes.bind comes') holds'
      | failed comes' of_kind => exact .failed (comes.bind comes') of_kind
      | never full never => exact .never full (.after comes never)
  | failed comes of_kind => exact .failed (comes.bind_error rest) of_kind
  | never full never => exact .never full (never.bind rest)

theorem after {first : Nat → Guest α} {rest : Nat → α → Guest β} {a : α} {t : Store}
    (h : Comes first s (.ok a) t) (h' : Settles (fun fuel => rest fuel a) t kind stuck Q') :
    Settles (fun fuel => first fuel >>= rest fuel) s kind stuck Q' :=
  bind (Q := fun b u => b = a ∧ u = t) (.done h ⟨rfl, rfl⟩) fun _ _ ⟨same, same'⟩ => by rwa [same, same']

theorem mono {work : Nat → Guest α} {stuck' : Prop} {R : α → Store → Prop} (h : Settles work s kind stuck Q)
    (weaker : stuck → stuck') (weaker' : ∀ a t, Q a t → R a t) : Settles work s kind stuck' R := by
  cases h with
  | done comes holds => exact .done comes (weaker' _ _ holds)
  | failed comes of_kind => exact .failed comes of_kind
  | never full never => exact .never (weaker full) never

end Settles

/-- The boundary by way of a support instance. -/
abbrev Support.Place.boundary (p : Place) (env : Environment) (fuel : Nat) : Boundary :=
  ⟨env, fuel, p.inst⟩

namespace Boundary

variable {p : Place} {s : Store} {x y : Space}

/-- Calling a helper of the instance is running the function, but for the wording of a failure. -/
theorem helper_run (env : Environment) (fuel : Nat) (h : p.Rooted s) (c : Call) :
    ((p.boundary env fuel).helper c.name c.type c.args).run s =
      (Machine.invoke env fuel s (p.base + c.index) c.args).map fun q =>
        (q.1.mapError fun e => .trap (c.name ++ ": " ++ e.text), q.2) := by
  have found : (s.exportedFunc? p.inst c.name).filter (fun a => s.hasType a c.type) =
      some (p.base + c.index) := by
    rw [h.exportedFunc?, Option.filter_some, if_pos (h.hasType c)]
  unfold helper
  rw [Guest.run_bind, show (get : Guest Store).run s = some (.ok s, s) from rfl, Option.bind_some]
  dsimp only
  rw [found]
  dsimp only
  rw [Guest.run_bind]
  change ((Machine.invoke env fuel s (p.base + c.index) c.args).bind _).bind _ = _
  cases Machine.invoke env fuel s (p.base + c.index) c.args with
  | none => rfl
  | some q =>
      obtain ⟨_ | vals, t⟩ := q
      · rfl
      · rfl

theorem helper_does (env : Environment) {c : Call} {r : Except Failure (List Val)} (h : p.Rooted s)
    (performs : p.Performs env s x c) (works : c.work x = (r, y)) :
    Comes (fun fuel => (p.boundary env fuel).helper c.name c.type c.args) (p.put s x)
      (r.mapError fun e => .trap (c.name ++ ": " ++ e.text)) (p.put s y) := by
  obtain ⟨n, runs⟩ := performs.runs id
  refine ⟨n, fun fuel hf => ?_⟩
  rw [helper_run env fuel (h.put x), runs fuel hf, works]
  rfl

theorem helper_comes (env : Environment) (h : p.Stands s) (c : Call) {vals : List Val} (fed : ¬ c.Starves x)
    (works : c.work x = (.ok vals, y)) :
    Comes (fun fuel => (p.boundary env fuel).helper c.name c.type c.args) (p.put s x) (.ok vals)
      (p.put s y) :=
  helper_does env h.toRooted (h.performs fed) works

/-- Where there is no handle for its buffer, a helper never answers. -/
theorem helper_never (env : Environment) (h : p.Stands s) {c : Call} (starves : c.Starves x) :
    Never (fun fuel => (p.boundary env fuel).helper c.name c.type c.args) (p.put s x) := by
  refine ⟨0, fun fuel _ => ?_⟩
  rw [helper_run env fuel (h.toRooted.put x), h.call_starves env starves]
  rfl

/-- What a helper answers and leaves, if it ends at all, is what its work comes to. -/
theorem helper_ends {env : Environment} {fuel : Nat} {c : Call} {s' : Store} {r : Except Error (List Val)}
    (h : p.Stands s) (owns : p.Owns s x)
    (ended : ((p.boundary env fuel).helper c.name c.type c.args).run s = some (r, s')) :
    r = (c.work x).1.mapError (fun e => .trap (c.name ++ ": " ++ e.text)) ∧ s' = p.put s (c.work x).2 := by
  rw [helper_run env fuel h.toRooted, ← owns.put_eq] at ended
  obtain ⟨⟨r', t⟩, ran, same⟩ := Option.map_eq_some_iff.mp ended
  obtain ⟨rfl, rfl⟩ := h.call_ended ran
  cases same
  exact ⟨rfl, rfl⟩

theorem word_does (env : Environment) {c : Call} {w : UInt32} (h : p.Rooted s)
    (performs : p.Performs env s x c) (works : c.work x = (.ok [.i32 w], y))
    (results : c.type.results = [.i32]) :
    Comes (fun fuel => (p.boundary env fuel).word c.name c.type.params c.args) (p.put s x) (.ok w)
      (p.put s y) := by
  have helped := helper_does env h performs works
  rw [show c.type = ⟨c.type.params, [.i32]⟩ by rw [← results]] at helped
  exact helped.bind (.now fun _ => rfl)

theorem word_comes (env : Environment) (h : p.Stands s) (c : Call) {w : UInt32} (fed : ¬ c.Starves x)
    (works : c.work x = (.ok [.i32 w], y)) (results : c.type.results = [.i32]) :
    Comes (fun fuel => (p.boundary env fuel).word c.name c.type.params c.args) (p.put s x) (.ok w)
      (p.put s y) :=
  word_does env h.toRooted (h.performs fed) works results

theorem word_never (env : Environment) (h : p.Stands s) {c : Call} (starves : c.Starves x)
    (results : c.type.results = [.i32]) :
    Never (fun fuel => (p.boundary env fuel).word c.name c.type.params c.args) (p.put s x) := by
  have helped := helper_never env h starves
  rw [show c.type = ⟨c.type.params, [.i32]⟩ by rw [← results]] at helped
  exact helped.bind _

/-- A helper that returns a word answers and leaves what its work comes to. -/
theorem word_ends {env : Environment} {fuel : Nat} {c : Call} {work : Support.Work UInt32} {s' : Store}
    {r : Except Error UInt32} (h : p.Stands s) (owns : p.Owns s x)
    (gives : c.work = work.giving fun w => [.i32 w]) (results : c.type.results = [.i32])
    (ended : ((p.boundary env fuel).word c.name c.type.params c.args).run s = some (r, s')) :
    r = (work x).1.mapError (fun e => .trap (c.name ++ ": " ++ e.text)) ∧ s' = p.put s (work x).2 := by
  unfold word at ended
  rw [show (⟨c.type.params, [.i32]⟩ : Wasm.FuncType) = c.type by rw [← results]] at ended
  rcases Guest.run_bind_eq_some ended with ⟨e, helped, rfl⟩ | ⟨vals, s₁, helped, ended⟩
  · obtain ⟨failed, left⟩ := helper_ends h owns helped
    rw [gives, Work.giving] at failed left
    generalize work x = outcome at failed left
    obtain ⟨e' | w, y⟩ := outcome
    · cases failed
      exact ⟨rfl, left⟩
    · cases failed
  · obtain ⟨answered, left⟩ := helper_ends h owns helped
    rw [gives, Work.giving] at answered left
    generalize work x = outcome at answered left
    obtain ⟨e' | w, y⟩ := outcome
    · cases answered
    · cases answered
      cases ended
      exact ⟨rfl, left⟩

/-- What the host does with its buffers is work on the instance's space. -/
theorem onHost_comes {α : Type} {f : Host → α × Host} {a : α} {buffers : Buffers}
    (h : ∀ host : Host, host.buffers = x.buffers → f host = (a, { host with buffers })) :
    Comes (fun _ => onHost f) (p.put s x) (.ok a) (p.put s { x with buffers }) := by
  refine .now fun _ => ?_
  have worked := h (p.put s x).host rfl
  change some (Except.ok (f (p.put s x).host).1, { p.put s x with host := (f (p.put s x).host).2 }) = _
  rw [worked]
  rfl

/-- A buffer is stored as long as there is a handle for it. -/
theorem store_comes (free : x.buffers.fresh ∉ x.buffers.live) (bytes : Array UInt8) :
    Comes (fun _ => storeBuffer ⟨bytes⟩) (p.put s x) (.ok x.buffers.fresh)
      (p.put s (x.withBuffer bytes.toList)) := by
  refine .now fun _ => ?_
  have stored : (p.put s x).host.insert ⟨bytes⟩ = some (x.buffers.fresh,
      { (p.put s x).host with buffers := (x.withBuffer bytes.toList).buffers }) := by
    rw [Host.insert, show (p.put s x).host.buffers = x.buffers from rfl, Buffers.insert_of_free free,
      Space.withBuffer, Array.toArray_toList]
    rfl
  rw [storeBuffer_run, stored]
  rfl

/-- Where there is none the search for it never ends. -/
theorem store_never (busy : x.buffers.fresh ∈ x.buffers.live) (bytes : ByteArray) :
    Never (fun _ => storeBuffer bytes) (p.put s x) := by
  refine ⟨0, fun _ _ => ?_⟩
  have none_stored : (p.put s x).host.insert bytes = none := by
    rw [Host.insert, show (p.put s x).host.buffers = x.buffers from rfl, Buffers.insert, if_pos busy]
    rfl
  rw [storeBuffer_run, none_stored]
  rfl

/-- A buffer that was stored can be taken once. -/
theorem take_comes (bytes : Array UInt8) :
    Comes (fun _ => onHost fun h => h.take x.buffers.fresh)
      (p.put s (x.withBuffer bytes.toList)) (.ok (.ok bytes))
      (p.put s { x with buffers := x.buffers.passing ⟨bytes⟩ }) := by
  have taken : (x.withBuffer bytes.toList).buffers.take x.buffers.fresh =
      (.ok ⟨bytes⟩, x.buffers.passing ⟨bytes⟩) := by
    simp [Space.withBuffer, Buffers.take, Buffers.passing]
  refine onHost_comes fun host same => ?_
  rw [Host.take, same, taken]
  rfl

end Boundary

end GuestHost
