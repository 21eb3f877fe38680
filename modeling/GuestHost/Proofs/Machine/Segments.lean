import GuestHost.Machine.Step

/-! Segments of runs. What a step comes to leads on to what later steps come to, and
segments are put together without counting steps. -/

namespace GuestHost.Machine

/-- What comes of `n` more steps, or of fewer if the run ends before. -/
def advance (env : Environment) : Nat → Progress → Progress
  | 0, p => p
  | _ + 1, .finished r s => .finished r s
  | n + 1, .next m => advance env n (step env m)

@[simp] theorem advance_finished (env : Environment) (n : Nat) (r : Except Failure (List Val))
    (s : Store) : advance env n (.finished r s) = .finished r s := by
  cases n with
  | zero => rfl
  | succ n => rfl

theorem advance_add (env : Environment) (n k : Nat) (p : Progress) :
    advance env (n + k) p = advance env k (advance env n p) := by
  induction n generalizing p with
  | zero => rw [Nat.zero_add, advance]
  | succ n ih =>
      rw [Nat.add_right_comm]
      cases p with
      | finished r s => simp
      | next m => exact ih _

/-- One comes to the other after some steps. -/
def Leads (env : Environment) (p q : Progress) : Prop := ∃ n, advance env n p = q

namespace Leads

variable {env : Environment} {p q r : Progress}

theorem refl : Leads env p p := ⟨0, rfl⟩

theorem of_eq (h : p = q) : Leads env p q := ⟨0, h⟩

theorem trans (h : Leads env p q) (h' : Leads env q r) : Leads env p r := by
  obtain ⟨n, rfl⟩ := h
  obtain ⟨k, rfl⟩ := h'
  exact ⟨n + k, advance_add env n k p⟩

/-- Goes on from where `n` steps lead. -/
theorem steps (n : Nat) (segment : advance env n p = q) (h : Leads env q r) : Leads env p r :=
  trans ⟨n, segment⟩ h

/-- A segment that ends a run is the run, for every bound on its steps that is large enough. -/
theorem run {m : State} {r : Except Failure (List Val)} {s : Store}
    (h : Leads env (.next m) (.finished r s)) : ∃ n, ∀ k ≥ n, run env k m = some (r, s) := by
  obtain ⟨n, h⟩ := h
  have ended : ∃ n, Machine.run env n m = some (r, s) := by
    induction n generalizing m with
    | zero => cases h
    | succ n ih =>
        rw [advance] at h
        cases hm : step env m with
        | next m' =>
            rw [hm] at h
            obtain ⟨k, hk⟩ := ih h
            exact ⟨k + 1, by rw [Machine.run, hm]; exact hk⟩
        | finished r' s' =>
            rw [hm, advance_finished] at h
            cases h
            exact ⟨1, by rw [Machine.run, hm]⟩
  obtain ⟨n, hn⟩ := ended
  refine ⟨n, fun k hk => ?_⟩
  obtain ⟨d, rfl⟩ := Nat.exists_eq_add_of_le hk
  exact run_mono hn

end Leads

/-- No number of steps comes to an end. -/
def Endless (env : Environment) (p : Progress) : Prop := ∀ n, ∃ m, advance env n p = .next m

namespace Endless

variable {env : Environment} {p q : Progress}

theorem of_leads (h : Leads env p q) (endless : Endless env q) : Endless env p := by
  obtain ⟨k, rfl⟩ := h
  intro n
  obtain ⟨m, later⟩ := endless n
  rw [← advance_add, Nat.add_comm, advance_add] at later
  cases here : advance env n p with
  | next m' => exact ⟨m', rfl⟩
  | finished r s =>
      rw [here, advance_finished] at later
      cases later

/-- What a step leads back to itself goes on forever. -/
theorem of_step {m : State} (same : step env m = .next m) : Endless env (.next m) := by
  intro n
  induction n with
  | zero => exact ⟨m, rfl⟩
  | succ n ih => rwa [advance, same]

theorem run {m : State} (endless : Endless env (.next m)) (n : Nat) : Machine.run env n m = none := by
  induction n generalizing m with
  | zero => rfl
  | succ n ih =>
      rw [Machine.run]
      cases hm : step env m with
      | next m' =>
          refine ih fun k => ?_
          obtain ⟨m'', later⟩ := endless (k + 1)
          exact ⟨m'', by rwa [advance, hm] at later⟩
      | finished r s =>
          obtain ⟨m', later⟩ := endless 1
          rw [advance, hm] at later
          cases later

end Endless

/-- The one leads to the other, but goes on forever where the host is stuck. -/
def LeadsUnless (env : Environment) (stuck : Prop) (p q : Progress) : Prop :=
  (stuck → Endless env p) ∧ (¬ stuck → Leads env p q)

namespace LeadsUnless

variable {env : Environment} {stuck : Prop} {p q r : Progress}

theorem of_leads (h : Leads env p q) : LeadsUnless env False p q := ⟨False.elim, fun _ => h⟩

theorem leads (h : LeadsUnless env False p q) : Leads env p q := h.2 id

theorem before (h : Leads env p q) (h' : LeadsUnless env stuck q r) : LeadsUnless env stuck p r :=
  ⟨fun full => .of_leads h (h'.1 full), fun free => h.trans (h'.2 free)⟩

theorem after (h : LeadsUnless env stuck p q) (h' : Leads env q r) : LeadsUnless env stuck p r :=
  ⟨h.1, fun free => (h.2 free).trans h'⟩

theorem congr {stuck' : Prop} (h : LeadsUnless env stuck p q) (same : stuck' ↔ stuck) :
    LeadsUnless env stuck' p q := by
  rwa [same]

end LeadsUnless

end GuestHost.Machine
