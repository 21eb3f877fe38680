import GuestHost.Proofs.Support.Functions

/-! Calls of the support module's exports from outside, and the work that each does. -/

namespace GuestHost.Support

open Machine
open Wasm (FuncType)

/-- A call of an export with its arguments. -/
inductive Call
  | alloc (size : UInt32)
  | boxInteger (n : UInt64)
  | boxNumber (x : Binary64)
  | boxString (buffer : UInt32)
  | stringNew (length : UInt32)
  | arrayCreate (length : UInt32)
  | arraySet (array index v : UInt32)
  | arrayGet (array index : UInt32)
  | arraySize (array : UInt32)
  | getTypeNum (v : UInt32)
  | stringLen (v : UInt32)
  | stringBytes (v : UInt32)
  | toHostInteger (v : UInt32)
  | toHostNumber (v : UInt32)
  | toHostString (v : UInt32)

/-- The work with its results as values. -/
def Work.giving {α : Type} (work : Work α) (results : α → List Val) : Work (List Val) :=
  fun x => ((work x).1.map results, (work x).2)

namespace Call

/-- The name under which the function is exported. -/
def name : Call → String
  | .alloc _ => "alloc"
  | .boxInteger _ => "box_integer"
  | .boxNumber _ => "box_number"
  | .boxString _ => "box_string"
  | .stringNew _ => "string_new"
  | .arrayCreate _ => "any_array_create"
  | .arraySet _ _ _ => "any_array_set"
  | .arrayGet _ _ => "any_array_get"
  | .arraySize _ => "any_array_size"
  | .getTypeNum _ => "get_type_num"
  | .stringLen _ => "string_len"
  | .stringBytes _ => "string_bytes"
  | .toHostInteger _ => "to_host_integer"
  | .toHostNumber _ => "to_host_number"
  | .toHostString _ => "to_host_string"

def args : Call → List Val
  | .alloc n | .stringNew n | .arrayCreate n => [.i32 n]
  | .boxInteger n => [.i64 n]
  | .boxNumber x => [.f64 x]
  | .boxString b => [.i32 b]
  | .arraySet a i v => [.i32 a, .i32 i, .i32 v]
  | .arrayGet a i => [.i32 a, .i32 i]
  | .arraySize v | .getTypeNum v | .stringLen v | .stringBytes v | .toHostInteger v
  | .toHostNumber v | .toHostString v => [.i32 v]

/-- The function's place among the module's own. -/
def index : Call → Nat
  | .alloc _ => 0
  | .getTypeNum _ => 3
  | .boxInteger _ => 4
  | .toHostInteger _ => 5
  | .boxNumber _ => 6
  | .toHostNumber _ => 7
  | .stringNew _ => 8
  | .stringBytes _ => 9
  | .stringLen _ => 10
  | .boxString _ => 11
  | .toHostString _ => 12
  | .arrayCreate _ => 14
  | .arraySet _ _ _ => 15
  | .arrayGet _ _ => 16
  | .arraySize _ => 17

/-- The instance needs no function of the host for it. -/
def isOwn : Call → Bool
  | .boxString _ | .toHostString _ => false
  | .alloc _ | .boxInteger _ | .boxNumber _ | .stringNew _ | .arrayCreate _ | .arraySet _ _ _
  | .arrayGet _ _ | .arraySize _ | .getTypeNum _ | .stringLen _ | .stringBytes _ | .toHostInteger _
  | .toHostNumber _ => true

/-- There is no handle for the buffer that the call is about to store. -/
def Starves : Call → Space → Prop
  | .toHostString v, x => Work.Starved v x
  | _, _ => False

theorem Starves.busy {c : Call} {x : Space} (h : c.Starves x) : x.buffers.fresh ∈ x.buffers.live := by
  cases c with
  | toHostString v => exact h.full
  | _ => exact h.elim

def type (c : Call) : FuncType :=
  module.types.getD ((functions[c.index]?.map Function.type).getD 0) ⟨[], []⟩

/-- What the function does, with its results as values. -/
def work : Call → Work (List Val)
  | .alloc n => (Work.alloc n).giving fun v => [.i32 v]
  | .boxInteger n => (Work.boxWord 2 n).giving fun v => [.i32 v]
  | .boxNumber x => (Work.boxWord 3 x.bits).giving fun v => [.i32 v]
  | .boxString b => (Work.boxString b).giving fun v => [.i32 v]
  | .stringNew n => (Work.stringNew n).giving fun v => [.i32 v]
  | .arrayCreate n => (Work.arrayCreate n).giving fun v => [.i32 v]
  | .arraySet a i v => (Work.arraySet a i v).giving fun _ => []
  | .arrayGet a i => (Work.arrayGet a i).giving fun v => [.i32 v]
  | .arraySize v | .getTypeNum v => (Work.head v).giving fun w => [.i32 w]
  | .stringLen v => (Work.stringLen v).giving fun n => [.i32 n]
  | .stringBytes v => (Work.stringBytes v).giving fun a => [.i32 a]
  | .toHostInteger v => (Work.unboxWord 2 v).giving fun n => [.i64 n]
  | .toHostNumber v => (Work.unboxWord 3 v).giving fun n => [.f64 ⟨n⟩]
  | .toHostString v => (Work.toHostString v).giving fun b => [.i32 b]

end Call

namespace Place

variable {env : Environment} {p : Place} {s : Store}

/-- In this space a call does its work. -/
abbrev Performs (p : Place) (env : Environment) (s : Store) (x : Space) (c : Call) : Prop :=
  p.Tries env False s x (p.base + c.index) c.args c.work id 3

/-- The results may count as part of the work. -/
theorem Tries.mapped {α : Type} {stuck : Prop} {x : Space} {func need : Nat} {args : List Val}
    {work : Work α} {results : α → List Val} (tries : p.Tries env stuck s x func args work results need)
    (few : need ≤ 3) : p.Tries env stuck s x func args (work.giving results) id 3 := by
  intro ws shallow
  refine (tries ws (by omega)).after (.of_eq ?_)
  rw [Work.giving]
  rcases work x with ⟨_ | _, _⟩
  · rfl
  · rfl

theorem Does.mapped {α : Type} {func need : Nat} {args : List Val} {work : Work α}
    {results : α → List Val} (does : p.Does env s func args work results need) (few : need ≤ 3) (x : Space) :
    p.Tries env False s x func args (work.giving results) id 3 :=
  (does.tries x).mapped few

/-- Without what the module imports, its instance does all that takes no function of the host. -/
theorem Rooted.performs (h : p.Rooted s) {c : Call} (own : c.isOwn = true) (x : Space) : p.Performs env s x c := by
  cases c with
  | alloc n => exact (h.does_alloc n).mapped (by decide) x
  | boxInteger n => exact (h.does_boxInteger n).mapped (by decide) x
  | boxNumber b => exact (h.does_boxNumber b).mapped (by decide) x
  | stringNew n => exact (h.does_stringNew n).mapped (by decide) x
  | arrayCreate n => exact (h.does_arrayCreate n).mapped (by decide) x
  | arraySet a i v => exact (h.does_arraySet a i v).mapped (by decide) x
  | arrayGet a i => exact (h.does_arrayGet a i).mapped (by decide) x
  | arraySize v => exact (h.does_arraySize v).mapped (by decide) x
  | getTypeNum v => exact (h.does_getTypeNum v).mapped (by decide) x
  | stringLen v => exact (h.does_stringLen v).mapped (by decide) x
  | stringBytes v => exact (h.does_stringBytes v).mapped (by decide) x
  | toHostInteger v => exact (h.does_toHostInteger v).mapped (by decide) x
  | toHostNumber v => exact (h.does_toHostNumber v).mapped (by decide) x
  | boxString | toHostString => cases own

/-- A call does its work, but goes on forever where there is no handle for its buffer. -/
theorem Stands.tries_call (h : p.Stands s) (c : Call) (x : Space) :
    p.Tries env (c.Starves x) s x (p.base + c.index) c.args c.work id 3 := by
  cases c with
  | boxString b => exact (h.does_boxString b).mapped (by decide) x
  | toHostString v => exact (h.tries_toHostString v x).mapped (by decide)
  | alloc | boxInteger | boxNumber | stringNew | arrayCreate | arraySet | arrayGet | arraySize
  | getTypeNum | stringLen | stringBytes | toHostInteger | toHostNumber => exact h.toRooted.performs rfl x

theorem Stands.performs (h : p.Stands s) {c : Call} {x : Space} (fed : ¬ c.Starves x) : p.Performs env s x c :=
  fun ws shallow => .of_leads ((h.tries_call c x ws shallow).2 fed)

/-- A call ends where the host is not stuck, and what it leaves and returns is what its work comes to. -/
theorem Tries.runs {stuck : Prop} {c : Call} {x : Space}
    (tries : p.Tries env stuck s x (p.base + c.index) c.args c.work id 3) (free : ¬ stuck) :
    ∃ n, ∀ fuel ≥ n, invoke env fuel (p.put s x) (p.base + c.index) c.args =
      some ((c.work x).1, p.put s (c.work x).2) := by
  refine Leads.run (((tries [] (by decide)).2 free).trans ?_)
  rcases c.work x with ⟨e | vals, y⟩
  · exact .refl
  · exact ⟨1, rfl⟩

theorem Stands.call_runs (env : Environment) (h : p.Stands s) {c : Call} {x : Space} (fed : ¬ c.Starves x) :
    ∃ n, ∀ fuel ≥ n, invoke env fuel (p.put s x) (p.base + c.index) c.args =
      some ((c.work x).1, p.put s (c.work x).2) :=
  (h.tries_call c x).runs fed

/-- Where there is no handle for its buffer a call never ends. -/
theorem Stands.call_starves (env : Environment) (h : p.Stands s) {c : Call} {x : Space} (starves : c.Starves x)
    (fuel : Nat) : invoke env fuel (p.put s x) (p.base + c.index) c.args = none :=
  ((h.tries_call c x [] (by decide)).1 starves).run fuel

/-- A call that has ended has done its work. -/
theorem Stands.call_ended {fuel : Nat} (h : p.Stands s) {c : Call} {x : Space} {r : Except Failure (List Val)}
    {s' : Store} (ended : invoke env fuel (p.put s x) (p.base + c.index) c.args = some (r, s')) :
    r = (c.work x).1 ∧ s' = p.put s (c.work x).2 := by
  by_cases starves : c.Starves x
  · cases (h.call_starves env starves fuel).symm.trans ended
  · obtain ⟨n, runs⟩ := h.call_runs env starves
    cases run_unique ended (runs n (Nat.le_refl n))
    exact ⟨rfl, rfl⟩

theorem Rooted.exportedFunc? (h : p.Rooted s) (c : Call) :
    s.exportedFunc? p.inst c.name = some (p.base + c.index) := by
  rw [Store.exportedFunc?, Store.export?, h.found]
  cases c <;> rfl

theorem Rooted.hasType (h : p.Rooted s) (c : Call) : s.hasType (p.base + c.index) c.type = true := by
  obtain ⟨f, hf⟩ : ∃ f, functions[c.index]? = some f := by
    cases c <;> exact ⟨_, rfl⟩
  rw [Store.hasType, h.own hf, Call.type, hf]
  exact beq_self_eq_true _

end Place

end GuestHost.Support
