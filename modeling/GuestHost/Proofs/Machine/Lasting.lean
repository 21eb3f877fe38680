import GuestHost.Proofs.Machine.Acts

/-! Relations between stores that outlast runs. One that every single act respects holds
between the stores before and after any run, whatever comes of it. -/

namespace GuestHost.Machine

/-- A relation that holds across everything a run can do to a store. An instance without
an entry counts, though the load that made it fails. -/
structure Lasting (env : Environment) (R : Store → Store → Prop) : Prop where
  refl : ∀ s, R s s
  trans : ∀ {a b c}, R a b → R b c → R a c
  act : ∀ {s s' n n'}, Act env (s, n) (s', n') → R s s'
  failed : ∀ s cause, cause ≠ .missingExport entryName → R s (s.record (.loadFailed cause))
  entryless : ∀ s : Store,
    R s ((s.mapHost Host.addInstance).record (.loadFailed (.missingExport entryName)))

namespace Lasting

variable {env : Environment} {R : Store → Store → Prop}

theorem acts (h : Lasting env R) {a b : Store × Nat} (acts : Acts env a b) : R a.1 b.1 := by
  induction acts with
  | refl => exact h.refl _
  | tail _ last ih => exact h.trans ih (h.act last)

theorem edits (h : Lasting env R) {s s' : Store} (edits : Edits s s') : R s s' :=
  h.acts (Acts.edits edits 0)

theorem unwinding (h : Lasting env R) (s : Store) (e : Failure) (ws : List Waiting) :
    R s { s with host := (unwind e s.host ws).2 } := by
  induction ws generalizing s e with
  | nil => exact h.refl s
  | cons w ws ih =>
      cases w with
      | caller f => exact ih s e
      | loading inst => exact h.trans (h.failed s _ (by simp)) (ih (s.record _) _)

/-- A step keeps the relation between the stores before and after it. -/
theorem step (h : Lasting env R) (m : State) :
    match Machine.step env m with
    | .next m' => R m.store m'.store
    | .finished _ s => R m.store s := by
  have passage := step_passage env m
  generalize Machine.step env m = p at passage ⊢
  cases passage with
  | next done => exact h.acts done
  | done results alone => exact h.refl _
  | failed e done => exact h.trans (h.acts done) (h.unwinding _ e _)
  | loadFailed cause other done =>
      exact h.trans (h.acts done) (h.trans (h.failed _ cause other) (h.unwinding _ _ _))
  | entryless done => exact h.trans (h.acts done) (h.trans (h.entryless _) (h.unwinding _ _ _))

theorem run (h : Lasting env R) {n : Nat} {m : State} {r : Except Failure (List Val)} {s : Store}
    (ended : Machine.run env n m = some (r, s)) : R m.store s := by
  induction n generalizing m with
  | zero => cases ended
  | succ n ih =>
      have hs := h.step m
      rw [Machine.run] at ended
      split at ended
      · next m' hm =>
          rw [hm] at hs
          exact h.trans hs (ih ended)
      · next hm =>
          rw [hm] at hs
          cases ended
          exact hs

/-- The relation holds at every moment of a run, also of one that never ends. -/
theorem reached (h : Lasting env R) {m m' : State}
    (steps : Relation.ReflTransGen (fun m m' => Machine.step env m = .next m') m m') :
    R m.store m'.store := by
  induction steps with
  | refl => exact h.refl _
  | @tail m₁ m₂ _ last ih =>
      have hs := h.step m₁
      rw [last] at hs
      exact h.trans ih hs

theorem invoke (h : Lasting env R) {fuel : Nat} {s s' : Store} {func : Nat} {args : List Val}
    {r : Except Failure (List Val)} (ended : Machine.invoke env fuel s func args = some (r, s')) :
    R s s' :=
  h.run ended

theorem instantiate (h : Lasting env R) (s : Store) {links : Links} (payload : Array UInt8)
    (agree : ∀ complete, env.links = some complete → complete = links) :
    R s (s.instantiate links payload).2 :=
  h.acts (instantiate_acts env s payload 0 agree)

end Lasting

end GuestHost.Machine
