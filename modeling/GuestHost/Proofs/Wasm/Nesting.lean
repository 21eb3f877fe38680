import GuestHost.Machine.Instantiation

/-! Valid code is nested: what opens a block while code is typed is what opens one while
it is nested, so code whose types are right closes all its blocks. -/

namespace GuestHost.Wasm

/-! ## Levels -/

/-- What opened the levels, innermost first. -/
def Levels.openers (ls : Levels) : List Opener := ls.map Level.opener

namespace Levels

theorem openers_popAny {ls ls' : Levels} {v : Option ValType} (h : ls.popAny = some (v, ls')) :
    ls'.openers = ls.openers := by
  cases ls with
  | nil => cases h
  | cons l ls =>
      rw [popAny] at h
      split at h
      · cases h
        rfl
      · split at h
        · cases h
          rfl
        · cases h

theorem openers_pop {ls ls' : Levels} {t : ValType} (h : ls.pop t = some ls') :
    ls'.openers = ls.openers := by
  unfold pop at h
  split at h
  · next popped =>
      cases h
      exact openers_popAny popped
  · next popped =>
      split at h
      · cases h
        exact openers_popAny popped
      · cases h
  · cases h

theorem openers_popAll {ts : List ValType} {ls ls' : Levels} (h : ls.popAll ts = some ls') :
    ls'.openers = ls.openers := by
  rw [popAll] at h
  generalize ts.reverse = us at h
  induction us generalizing ls with
  | nil =>
      cases h
      rfl
  | cons t us ih =>
      rw [List.foldlM_cons] at h
      obtain ⟨ls₁, popped, h⟩ := Option.bind_eq_some_iff.mp h
      rw [ih h, openers_pop popped]

theorem openers_push (v : Option ValType) (ls : Levels) : (ls.push v).openers = ls.openers := by
  cases ls with
  | nil => rfl
  | cons l ls => rfl

theorem openers_pushAll (ts : List ValType) (ls : Levels) : (ls.pushAll ts).openers = ls.openers := by
  unfold pushAll
  induction ts generalizing ls with
  | nil => rfl
  | cons t ts ih => rw [List.foldl_cons, ih, openers_push]

theorem openers_kill (ls : Levels) : ls.kill.openers = ls.openers := by
  cases ls with
  | nil => rfl
  | cons l ls => rfl

theorem openers_apply {params results : List ValType} {ls ls' : Levels}
    (h : ls.apply params results = some ls') : ls'.openers = ls.openers := by
  obtain ⟨ls₁, popped, rfl⟩ := Option.map_eq_some_iff.mp h
  rw [openers_pushAll, openers_popAll popped]

theorem openers_enter {opener : Opener} {t : FuncType} {ls ls' : Levels}
    (h : ls.enter opener t = some ls') : ls'.openers = opener :: ls.openers := by
  obtain ⟨ls₁, popped, rfl⟩ := Option.map_eq_some_iff.mp h
  rw [openers_pushAll, openers, List.map_cons, ← openers, openers_popAll popped]

theorem openers_leave {ls ls' : Levels} {l : Level} (h : ls.leave = some (l, ls')) :
    ls.openers = l.opener :: ls'.openers := by
  cases ls with
  | nil => cases h
  | cons l₀ ls =>
      simp only [leave] at h
      split at h
      · next popped =>
          split at h
          · cases h
            rw [← openers_popAll popped]
            rfl
          · cases h
      · cases h

end Levels

/-! ## Operators -/

/-- The open levels after an operator, by what opened them. -/
def Operator.opens : Operator → List Opener → Option (List Opener)
  | .block _, os => some (.block :: os)
  | .loop _, os => some (.loop :: os)
  | .cond _, os => some (.cond :: os)
  | .otherwise, .cond :: os => some (.otherwise :: os)
  | .otherwise, _ => none
  | .close, _ :: os => some os
  | .close, [] => none
  | _, os => some os

/-- What closes the last level closes levels. -/
theorem Operator.opens_nil {op : Operator} {os : List Opener} (closes : op.opens os = some [])
    (levels : os ≠ []) : op = .close := by
  cases op with
  | close => rfl
  | block | loop | cond => cases closes
  | otherwise =>
      match os with
      | [] => cases closes
      | .cond :: os => cases closes
      | .body :: os | .block :: os | .loop :: os | .otherwise :: os => cases closes
  | plain | branch | branchIf | branchTable | ret | call | callIndirect =>
      exact absurd (Option.some.inj closes) levels

namespace Context

theorem openers_checkPlain {c : Context} {p : Plain} {ls ls' : Levels}
    (h : c.checkPlain p ls = some ls') : ls'.openers = ls.openers := by
  unfold checkPlain at h
  split at h
  · cases h
    exact Levels.openers_kill ls
  · obtain ⟨⟨v, ls₁⟩, popped, rfl⟩ := Option.map_eq_some_iff.mp h
    exact Levels.openers_popAny popped
  · obtain ⟨ls₁, first, h⟩ := Option.bind_eq_some_iff.mp h
    obtain ⟨⟨u, ls₂⟩, second, h⟩ := Option.bind_eq_some_iff.mp h
    obtain ⟨⟨v, ls₃⟩, third, h⟩ := Option.bind_eq_some_iff.mp h
    have same := (Levels.openers_popAny third).trans
      ((Levels.openers_popAny second).trans (Levels.openers_pop first))
    dsimp only at h
    split at h
    · cases h
    · split at h
      · cases h
        rw [Levels.openers_push, same]
      · split at h
        · cases h
          rw [Levels.openers_push, same]
        · cases h
  · obtain ⟨t, _, h⟩ := Option.bind_eq_some_iff.mp h
    exact Levels.openers_apply h

/-- An operator that is typed opens and closes what its kind does. -/
theorem opens_checkOperator {c : Context} {op : Operator} {ls ls' : Levels}
    (h : c.checkOperator op ls = some ls') : op.opens ls.openers = some ls'.openers := by
  cases op with
  | plain p => exact congrArg some (openers_checkPlain h).symm
  | block t =>
      obtain ⟨t, _, h⟩ := Option.bind_eq_some_iff.mp h
      exact congrArg some (Levels.openers_enter h).symm
  | loop t =>
      obtain ⟨t, _, h⟩ := Option.bind_eq_some_iff.mp h
      exact congrArg some (Levels.openers_enter h).symm
  | cond t =>
      obtain ⟨t, _, h⟩ := Option.bind_eq_some_iff.mp h
      obtain ⟨ls₁, popped, h⟩ := Option.bind_eq_some_iff.mp h
      rw [Operator.opens, Levels.openers_enter h, Levels.openers_pop popped]
  | otherwise =>
      obtain ⟨⟨l, ls₁⟩, left, h⟩ := Option.bind_eq_some_iff.mp h
      dsimp only at h
      split at h
      · next isCond =>
          cases h
          rw [Levels.openers_leave left, isCond, Levels.openers_pushAll]
          rfl
      · cases h
  | close =>
      obtain ⟨⟨l, ls₁⟩, left, h⟩ := Option.bind_eq_some_iff.mp h
      dsimp only at h
      split at h
      · cases h
      · cases h
        rw [Levels.openers_leave left, Levels.openers_pushAll]
        rfl
  | branch d =>
      obtain ⟨ts, _, h⟩ := Option.bind_eq_some_iff.mp h
      obtain ⟨ls₁, popped, h⟩ := Option.bind_eq_some_iff.mp h
      cases h
      rw [Levels.openers_kill, Levels.openers_popAll popped]
      rfl
  | branchIf d =>
      obtain ⟨ts, _, h⟩ := Option.bind_eq_some_iff.mp h
      obtain ⟨ls₁, popped, h⟩ := Option.bind_eq_some_iff.mp h
      rw [Levels.openers_apply h, Levels.openers_pop popped]
      rfl
  | branchTable ds d =>
      obtain ⟨ts, _, h⟩ := Option.bind_eq_some_iff.mp h
      obtain ⟨ls₁, popped, h⟩ := Option.bind_eq_some_iff.mp h
      dsimp only at h
      split at h
      · obtain ⟨ls₂, popped', h⟩ := Option.bind_eq_some_iff.mp h
        cases h
        rw [Levels.openers_kill, Levels.openers_popAll popped', Levels.openers_pop popped]
        rfl
      · cases h
  | ret =>
      obtain ⟨l, _, h⟩ := Option.bind_eq_some_iff.mp h
      obtain ⟨ls₁, popped, h⟩ := Option.bind_eq_some_iff.mp h
      cases h
      rw [Levels.openers_kill, Levels.openers_popAll popped]
      rfl
  | call i =>
      obtain ⟨t, _, h⟩ := Option.bind_eq_some_iff.mp h
      rw [Levels.openers_apply h]
      rfl
  | callIndirect type table =>
      simp only [checkOperator] at h
      split at h
      · obtain ⟨t, _, h⟩ := Option.bind_eq_some_iff.mp h
        obtain ⟨ls₁, popped, h⟩ := Option.bind_eq_some_iff.mp h
        rw [Levels.openers_apply h, Levels.openers_pop popped]
        rfl
      · cases h

theorem checkOperators_cons {c : Context} {op : Operator} {ops : List Operator} {ls : Levels}
    (typed : c.checkOperators (op :: ops) ls = true) :
    ∃ ls', c.checkOperator op ls = some ls' ∧ c.checkOperators ops ls' = true := by
  cases ls with
  | nil => cases typed
  | cons l ls =>
      rw [checkOperators] at typed
      split at typed
      · next ls' checked => exact ⟨ls', checked, typed⟩
      · cases typed
      · exact List.cons_ne_nil l ls

/-- Code that is typed ends with the operator that closes its last level. -/
theorem checkOperators_ends {c : Context} {ops : List Operator} {ls : Levels}
    (typed : c.checkOperators ops ls = true) (levels : ls ≠ []) : ops.getLast? = some .close := by
  induction ops generalizing ls with
  | nil => exact absurd (List.isEmpty_iff.mp typed) levels
  | cons op ops ih =>
      obtain ⟨ls', checked, rest⟩ := checkOperators_cons typed
      by_cases last : ls' = []
      · have opens := opens_checkOperator checked
        rw [last] at opens rest
        cases ops with
        | cons op' ops => cases rest
        | nil =>
            rw [Operator.opens_nil opens fun none => levels (List.map_eq_nil_iff.mp none)]
            rfl
      · rw [List.getLast?_cons, ih rest last]
        rfl

end Context

/-! ## Bodies -/

namespace Instr

/-- What opened a block that has not been closed yet. -/
def Unclosed.opener : Unclosed → Opener
  | .block _ => .block
  | .loop _ => .loop
  | .cond _ => .cond
  | .otherwise _ _ => .otherwise

/-- The levels around a body's code, given its unclosed blocks. -/
def around (outer : List (Unclosed × List Instr)) : List Opener :=
  outer.map (·.1.opener) ++ [.body]

/-- Code that is typed at some levels closes as many blocks. -/
theorem nestFrom_isSome {c : Context} {ops : List Operator} {ls : Levels} {acc : List Instr}
    {outer : List (Unclosed × List Instr)} (typed : c.checkOperators ops ls = true)
    (levels : ls.openers = around outer) : (nestFrom acc outer ops).isSome = true := by
  induction ops generalizing ls acc outer with
  | nil =>
      have closed : ls = [] := List.isEmpty_iff.mp typed
      rw [closed] at levels
      exact absurd levels.symm (by simp [around, Levels.openers])
  | cons op ops ih =>
      obtain ⟨ls', checked, rest⟩ := c.checkOperators_cons typed
      have opens := c.opens_checkOperator checked
      rw [levels] at opens
      cases op with
      | block t => exact ih rest (Option.some.inj opens).symm
      | loop t => exact ih rest (Option.some.inj opens).symm
      | cond t => exact ih rest (Option.some.inj opens).symm
      | otherwise =>
          match outer with
          | [] => cases opens
          | (.block t, before) :: outer => cases opens
          | (.loop t, before) :: outer => cases opens
          | (.otherwise t yes, before) :: outer => cases opens
          | (.cond t, before) :: outer => exact ih rest (Option.some.inj opens).symm
      | close =>
          match outer with
          | [] =>
              -- No level is left open, so the code ends here.
              have closed : ls' = [] := List.map_eq_nil_iff.mp (Option.some.inj opens).symm
              rw [closed] at rest
              cases ops with
              | nil => rfl
              | cons op ops => cases rest
          | (b, before) :: outer => exact ih rest (Option.some.inj opens).symm
      | _ => exact ih rest (Option.some.inj opens).symm

end Instr

theorem mapM_isSome {α β : Type} {f : α → Option β} {xs : List α} (h : ∀ x ∈ xs, (f x).isSome = true) :
    (xs.mapM f).isSome = true := by
  induction xs with
  | nil => rfl
  | cons x xs ih =>
      obtain ⟨y, hy⟩ := Option.isSome_iff_exists.mp (h x List.mem_cons_self)
      obtain ⟨ys, hys⟩ := Option.isSome_iff_exists.mp (ih fun z hz => h z (List.mem_cons_of_mem x hz))
      rw [List.mapM_cons, hy, Option.bind_eq_bind, Option.bind_some, hys]
      rfl

namespace Module

/-- Every body of a valid module has been typed. -/
theorem isValid_bodies {m : Module} (valid : m.isValid = true) {i : Nat} {b : Body}
    (own : (i, b) ∈ m.funcs.zip m.bodies) :
    ∃ (c : Context) (t : FuncType), m.types[i]? = some t ∧ c.checkBody t b = true := by
  rw [isValid] at valid
  split at valid
  · cases valid
  · next c _ =>
      simp only [Bool.and_eq_true, List.all_eq_true] at valid
      have typed := valid.2 (i, b) own
      dsimp only at typed
      split at typed
      · next t type => exact ⟨c, t, type, typed⟩
      · cases typed

/-- No two exports of a valid module have the same name. -/
theorem isValid_exports {m : Module} (valid : m.isValid = true) : (m.exports.map Export.name).Nodup := by
  rw [isValid] at valid
  split at valid
  · cases valid
  · simp only [Bool.and_eq_true, decide_eq_true_eq] at valid
    exact valid.1.1.1.2

/-- A valid module has a body for each of its functions. -/
theorem isValid_lengths {m : Module} (valid : m.isValid = true) : m.funcs.length = m.bodies.length := by
  rw [isValid] at valid
  split at valid
  · cases valid
  · simp only [Bool.and_eq_true, beq_iff_eq] at valid
    exact valid.1.2

/-- The functions of a valid module, the imported ones included, are no more than there may be. -/
theorem isValid_funcs {m : Module} (valid : m.isValid = true) :
    m.importedFuncs + m.bodies.length ≤ maxFuncs := by
  have few : m.funcTypes.length ≤ maxFuncs := by
    rw [isValid] at valid
    split at valid
    · cases valid
    · simp only [Bool.and_eq_true, decide_eq_true_eq] at valid
      exact valid.1.1.1.1.1.1.1.1.1.1
  have imported : m.funcTypes.length = m.importedFuncs + m.funcs.length := by
    rw [funcTypes, List.length_append, List.length_filterMap_eq_countP, importedFuncs]
    refine congrArg (· + m.funcs.length) (List.countP_congr fun i _ => ?_)
    cases i.type <;> simp
  rwa [imported, isValid_lengths valid] at few

/-- The bodies of a valid module end with the operator that closes them. -/
theorem isValid_ends {m : Module} (valid : m.isValid = true) {b : Body} (own : b ∈ m.bodies) :
    b.code.getLast? = some .close := by
  obtain ⟨n, place⟩ := List.mem_iff_getElem?.mp own
  have inside : n < m.funcs.length := by
    rw [isValid_lengths valid]
    exact (List.getElem?_eq_some_iff.mp place).1
  have zipped : (m.funcs[n], b) ∈ m.funcs.zip m.bodies := by
    refine List.mem_iff_getElem?.mpr ⟨n, ?_⟩
    rw [List.getElem?_zip_eq_some]
    exact ⟨List.getElem?_eq_getElem inside, place⟩
  obtain ⟨c, t, _, typed⟩ := isValid_bodies valid zipped
  rw [Context.checkBody, Bool.and_eq_true] at typed
  exact Context.checkOperators_ends typed.2 (List.cons_ne_nil _ _)

/-- The code of every function of a valid module can be nested. -/
theorem nestedBodies?_isSome {m : Module} (valid : m.isValid = true) :
    (Machine.nestedBodies? m).isSome = true := by
  refine mapM_isSome fun ⟨i, b⟩ own => ?_
  obtain ⟨c, t, type, typed⟩ := isValid_bodies valid own
  rw [Context.checkBody, Bool.and_eq_true] at typed
  have nested : (Instr.nest? b.code).isSome = true := Instr.nestFrom_isSome typed.2 rfl
  obtain ⟨code, nested⟩ := Option.isSome_iff_exists.mp nested
  dsimp only
  rw [type, nested]
  rfl

end Module

end GuestHost.Wasm
