import GuestHost.Proofs.Session.Crossing

/-! Bounds on steps do not matter once they are large enough: what a call answers with one bound,
it answers with every larger one. -/

namespace GuestHost

open Machine
open Wasm (FuncType ValType)

/-- What ends with one bound on the steps of its runs ends alike with every larger one. -/
def Steady {α : Type} (work : Nat → Guest α) : Prop :=
  ∀ ⦃n k s q⦄, n ≤ k → (work n).run s = some q → (work k).run s = some q

namespace Steady

variable {α β : Type}

theorem const (work : Guest α) : Steady fun _ => work := fun _ _ _ _ _ ended => ended

theorem bind {first : Nat → Guest α} {rest : Nat → α → Guest β} (h : Steady first)
    (h' : ∀ a, Steady fun fuel => rest fuel a) : Steady fun fuel => first fuel >>= rest fuel := by
  intro n k s q more ended
  rw [Guest.run_bind] at ended ⊢
  obtain ⟨⟨r, t⟩, ran, ended⟩ := Option.bind_eq_some_iff.mp ended
  rw [h more ran, Option.bind_some]
  cases r with
  | error e => exact ended
  | ok a => exact h' a more ended

theorem caught {work : Nat → Guest α} (h : Steady work) : Steady fun fuel =>
    (tryCatch (Except.ok <$> work fuel) fun e => pure (Except.error e) : Guest (Except Error α)) := by
  intro n k s q more ended
  rw [Guest.run_caught] at ended ⊢
  obtain ⟨p, ran, same⟩ := Option.map_eq_some_iff.mp ended
  rw [h more ran, ← same]
  rfl

/-- What it ends with, it comes to. -/
theorem comes {work : Nat → Guest α} (h : Steady work) {n : Nat} {s s' : Store} {r : Except Error α}
    (ended : (work n).run s = some (r, s')) : Comes work s r s' :=
  ⟨n, fun _ more => h more ended⟩

/-- What has no end from some bound on has none at all. -/
theorem never {work : Nat → Guest α} (h : Steady work) {s : Store} (never : Never work s) (n : Nat) :
    (work n).run s = none := by
  obtain ⟨k, never⟩ := never
  cases ended : (work n).run s with
  | none => rfl
  | some q => cases (never _ (Nat.le_max_right n k)).symm.trans (h (Nat.le_max_left n k) ended)

end Steady

namespace Boundary

variable {env : Environment} {support : Nat}

theorem invoke_steady (func : Nat) (args : List Val) :
    Steady fun fuel => (⟨env, fuel, support⟩ : Boundary).invoke func args := by
  intro n k s q more ended
  obtain ⟨j, rfl⟩ := Nat.exists_eq_add_of_le more
  obtain ⟨p, ran, ended⟩ := Option.bind_eq_some_iff.mp ended
  have ran' : Machine.invoke env (n + j) s func args = some p := run_mono ran
  change (Machine.invoke env (n + j) s func args).bind _ = _
  rw [ran']
  exact ended

theorem helper_steady (name : String) (type : FuncType) (args : List Val) :
    Steady fun fuel => (⟨env, fuel, support⟩ : Boundary).helper name type args := by
  refine .bind (.const get) fun s => ?_
  dsimp only
  split
  · exact .const _
  · refine .bind (invoke_steady _ _) fun r => ?_
    exact .const _

theorem word_steady (name : String) (params : List ValType) (args : List Val) :
    Steady fun fuel => (⟨env, fuel, support⟩ : Boundary).word name params args :=
  .bind (helper_steady _ _ _) fun _ => .const _

theorem lowerText_steady (text : String) :
    Steady fun fuel => (⟨env, fuel, support⟩ : Boundary).lowerText text :=
  .bind (.const _) fun _ => .bind (.caught (word_steady _ _ _)) fun _ => .const _

theorem lower_steady (v : Value) : Steady fun fuel => (⟨env, fuel, support⟩ : Boundary).lower v := by
  cases v with
  | nil => exact .const _
  | integer n => exact word_steady _ _ _
  | number x => exact word_steady _ _ _
  | text s => exact lowerText_steady s

theorem storeFrom_steady (array : UInt32) (i : Nat) (vs : List Value) :
    Steady fun fuel => (⟨env, fuel, support⟩ : Boundary).storeFrom array i vs := by
  induction vs generalizing i with
  | nil => exact .const _
  | cons v vs ih => exact .bind (lower_steady v) fun r => .bind (helper_steady _ _ _) fun _ => ih (i + 1)

theorem pack_steady (args : List Value) : Steady fun fuel => (⟨env, fuel, support⟩ : Boundary).pack args := by
  unfold pack
  split
  · exact .const _
  · split
    · exact .const _
    · exact .bind (word_steady _ _ _) fun array => .bind (storeFrom_steady array 0 args) fun _ => .const _

theorem liftText_steady (r : UInt32) : Steady fun fuel => (⟨env, fuel, support⟩ : Boundary).liftText r :=
  .bind (word_steady _ _ _) fun _ => .const _

theorem lift_steady (r : UInt32) : Steady fun fuel => (⟨env, fuel, support⟩ : Boundary).lift r := by
  unfold lift
  split
  · exact .const _
  · refine .bind (word_steady _ _ _) fun raw => ?_
    split
    · exact .const _
    · exact .const _
    · exact .bind (helper_steady _ _ _) fun vals => .const _
    · exact .bind (helper_steady _ _ _) fun vals => .const _
    · exact liftText_steady r
    · exact .const _

theorem liftFrom_steady (array : UInt32) (acc : List Value) (i n : Nat) :
    Steady fun fuel => (⟨env, fuel, support⟩ : Boundary).liftFrom array acc i n := by
  induction n generalizing acc i with
  | zero => exact .const _
  | succ n ih => exact .bind (word_steady _ _ _) fun r => .bind (lift_steady r) fun v => ih (v :: acc) (i + 1)

theorem unpack_steady (array : UInt32) : Steady fun fuel => (⟨env, fuel, support⟩ : Boundary).unpack array := by
  unfold unpack
  split
  · exact .const _
  · exact .bind (word_steady _ _ _) fun size => .bind (liftFrom_steady array [] 0 _) fun _ => .const _

theorem failed_steady {α : Type} (e : Failure) :
    Steady fun fuel => ((⟨env, fuel, support⟩ : Boundary).failed e : Guest α) := by
  cases e with
  | thrown v => exact .bind (lift_steady _) fun _ => .const _
  | host | trap | message => exact .const _

theorem conclude_steady (end_ : Except Failure (List Val)) :
    Steady fun fuel => (⟨env, fuel, support⟩ : Boundary).conclude end_ := by
  unfold conclude
  split
  · exact unpack_steady _
  · exact .const _
  · exact failed_steady _

theorem call_steady (entry : Nat) (args : List Value) :
    Steady fun fuel => (⟨env, fuel, support⟩ : Boundary).call entry args := by
  refine .bind (.const get) fun s => ?_
  split
  · refine .bind (pack_steady args) fun packed => ?_
    exact .bind (invoke_steady _ _) fun r => conclude_steady r
  · exact .const _

end Boundary

/-- A call that is answered is answered alike when more steps may be taken. -/
theorem Session.call_more {n k : Nat} {s s' : Session} {e : Entry} {args : List Value}
    {r : Except Error Returned} (called : s.call n e args = some (r, s')) (more : n ≤ k) :
    s.call k e args = some (r, s') := by
  rw [call] at called ⊢
  split at called
  · next own =>
      obtain ⟨⟨r', store⟩, ended, same⟩ := Option.map_eq_some_iff.mp called
      rw [if_pos own, Boundary.call_steady e.func args more ended, Option.map_some, ← same]
  · next other => rw [if_neg other, ← called]

end GuestHost
