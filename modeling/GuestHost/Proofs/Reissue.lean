import GuestHost.Proofs.Ledger

/-! A handle that was taken stays dead until the counter has come round. Between two insertions that
issue the same handle the counter passes every other one, and what it passes was issued or is live. -/

namespace GuestHost.Buffers

/-! ## What one operation changes -/

/-- The handle that an answer issues. -/
def Answer.issue? : Answer → Option Handle
  | .issued h => some h
  | .content _ | .written | .refused _ => none

/-- The handles that answers issue, one for each insertion. -/
def issues (as : List Answer) : List Handle := as.filterMap Answer.issue?

variable {turns : ℕ} {t t' start : Buffers} {op : Op} {ops : List Op} {a : Answer} {as since : List Answer}
  {h k : Handle}

theorem issues_append (as bs : List Answer) : issues (as ++ bs) = issues as ++ issues bs :=
  List.filterMap_append

theorem issue?_of (r : Except Error ByteArray) : (Answer.of r).issue? = none := by
  cases r with
  | ok bytes => rfl
  | error e => rfl

/-- An insertion moves the counter on, over live handles, and makes live what it issues. -/
theorem perform_insert_cases {bytes : ByteArray} (done : t.perform turns (.insert bytes) = some (a, t')) :
    ∃ d, a = .issued (Handle.succ^[d + 1] t.issued) ∧ t'.issued = Handle.succ^[d + 1] t.issued ∧
      (∀ i < d, Handle.succ^[i + 1] t.issued ∈ t.live) ∧
      ∀ k ∈ t'.live, k = Handle.succ^[d + 1] t.issued ∨ k ∈ t.live := by
  obtain ⟨k, _, found, rfl, rfl⟩ := perform_insert_some done
  obtain ⟨d, rfl, -, passed⟩ := probe_eq_some found
  refine ⟨d, rfl, rfl, passed, fun k live => ?_⟩
  rcases Std.ExtTreeMap.mem_insert.mp live with same | old
  · exact .inl (Std.LawfulEqCmp.eq_of_compare same).symm
  · exact .inr old

/-- Nothing but an insertion moves it, or makes a handle live. -/
theorem perform_cases (done : t.perform turns op = some (a, t')) :
    (∃ bytes, op = .insert bytes) ∨ a.issue? = none ∧ t'.issued = t.issued ∧ ∀ k ∈ t'.live, k ∈ t.live := by
  cases op with
  | insert bytes => exact .inl ⟨bytes, rfl⟩
  | get k =>
      cases done
      exact .inr ⟨issue?_of _, rfl, fun _ live => live⟩
  | take k =>
      cases done
      refine .inr ⟨issue?_of _, ?_⟩
      rw [take]
      split
      · exact ⟨rfl, fun _ live => (Std.ExtTreeMap.mem_erase.mp live).2⟩
      · exact ⟨rfl, fun _ live => live⟩
  | write k f =>
      rw [perform] at done
      split at done
      · cases done
        exact .inr ⟨rfl, rfl, fun _ live => Std.ExtTreeMap.mem_modify.mp live⟩
      · cases done
        exact .inr ⟨rfl, rfl, fun _ live => live⟩

theorem performAll_cons_cases (done : performAll turns t (op :: ops) = some (as, t')) :
    ∃ a t₁ bs, t.perform turns op = some (a, t₁) ∧ performAll turns t₁ ops = some (bs, t') ∧ as = a :: bs := by
  rw [performAll] at done
  split at done
  · cases done
  · next a t₁ first =>
      obtain ⟨⟨bs, t₂⟩, rest, done⟩ := Option.map_eq_some_iff.mp done
      cases done
      exact ⟨a, t₁, bs, first, rest, rfl⟩

/-! ## What the counter passes -/

/-- The handle was issued since the table was as it was at first, or was live then. -/
def Known (start : Buffers) (since : List Answer) (k : Handle) : Prop := k ∈ issues since ∨ k ∈ start.live

theorem Known.append (known : Known start since k) (as : List Answer) : Known start (since ++ as) k := by
  rw [Known, issues_append]
  exact known.imp_left (List.mem_append_left _)

/-- Since it stood at a handle, the counter has gone on by a step at least for each insertion. All that
it has passed is known, and so is all that is live. -/
structure Swept (start : Buffers) (since : List Answer) (h : Handle) (t : Buffers) : Prop where
  passed : ∃ p, (issues since).length ≤ p ∧ t.issued = Handle.succ^[p] h ∧
    ∀ i < p, Known start since (Handle.succ^[i + 1] h)
  live : ∀ k ∈ t.live, Known start since k

namespace Swept

theorem refl (t : Buffers) : Swept t [] t.issued t where
  passed := ⟨0, Nat.le_refl 0, rfl, fun _ less => absurd less (Nat.not_lt_zero _)⟩
  live _ live := .inr live

theorem insert {bytes : ByteArray} (swept : Swept start since h t)
    (done : t.perform turns (.insert bytes) = some (a, t')) : Swept start (since ++ [a]) h t' := by
  obtain ⟨p, count, position, passed⟩ := swept.passed
  obtain ⟨d, rfl, counter, skipped, live⟩ := perform_insert_cases done
  simp only [position, ← Function.iterate_add_apply] at counter skipped live ⊢
  have issues : issues (since ++ [.issued (Handle.succ^[d + 1 + p] h)]) =
      issues since ++ [Handle.succ^[d + 1 + p] h] := issues_append _ _
  have fresh : Known start (since ++ [.issued (Handle.succ^[d + 1 + p] h)]) (Handle.succ^[d + 1 + p] h) := by
    rw [Known, issues]
    exact .inl (List.mem_append_right _ List.mem_cons_self)
  refine ⟨⟨d + 1 + p, ?_, counter, fun i less => ?_⟩, fun k found => ?_⟩
  · rw [issues, List.length_append, List.length_singleton]
    omega
  · rcases Nat.lt_or_ge i p with before | after
    · exact (passed i before).append _
    · obtain ⟨j, rfl⟩ := Nat.exists_eq_add_of_le' after
      rw [Nat.add_right_comm j]
      rcases Nat.lt_or_ge j d with among | last
      · exact (swept.live _ (skipped j among)).append _
      · obtain rfl : j = d := by omega
        exact fresh
  · rcases live k found with rfl | old
    · exact fresh
    · exact (swept.live k old).append _

theorem step (swept : Swept start since h t) (done : t.perform turns op = some (a, t')) :
    Swept start (since ++ [a]) h t' := by
  rcases perform_cases done with ⟨bytes, rfl⟩ | ⟨silent, counter, live⟩
  · exact swept.insert done
  · obtain ⟨p, count, position, passed⟩ := swept.passed
    have issues : issues (since ++ [a]) = issues since := by
      rw [issues_append, Buffers.issues, Buffers.issues, List.filterMap_cons_none silent]
      exact List.append_nil _
    refine ⟨⟨p, ?_, counter.trans position, fun i less => (passed i less).append _⟩,
      fun k found => (swept.live k (live k found)).append _⟩
    rwa [issues]

theorem run (swept : Swept start since h t) (done : performAll turns t ops = some (as, t')) :
    Swept start (since ++ as) h t' := by
  induction ops generalizing t since as with
  | nil =>
      cases done
      rwa [List.append_nil]
  | cons op ops ih =>
      obtain ⟨a, t₁, bs, first, rest, rfl⟩ := performAll_cons_cases done
      have later := ih (swept.step first) rest
      rwa [List.append_assoc] at later

/-- When the handle is issued again, the counter has gone round. -/
theorem again {bytes : ByteArray} (swept : Swept start since h t)
    (done : t.perform turns (.insert bytes) = some (.issued h, t')) :
    ∀ i < 2147483646, Known start since (Handle.succ^[i + 1] h) := by
  obtain ⟨p, count, position, passed⟩ := (swept.insert done).passed
  obtain ⟨d, same, counter, -⟩ := perform_insert_cases done
  have issues : issues (since ++ [.issued h]) = issues since ++ [h] := issues_append _ _
  rw [issues, List.length_append, List.length_singleton] at count
  have round : Handle.succ^[p] h = h := by
    rw [← position, counter]
    exact (Answer.issued.inj same).symm
  have cycle : 2147483647 ≤ p := by
    by_contra few
    exact Handle.iterate_ne (by omega) (by omega) round
  intro i less
  have known := passed i (by omega)
  rw [Known, issues] at known
  refine known.imp_left fun among => ?_
  rcases List.mem_append.mp among with before | now
  · exact before
  · exact absurd (List.mem_singleton.mp now) (Handle.iterate_ne i.succ_pos (by omega))

/-- All but the handles that were live at first had to be issued before. -/
theorem again_count {bytes : ByteArray} (swept : Swept start since h t)
    (done : t.perform turns (.insert bytes) = some (.issued h, t')) :
    2147483646 ≤ (issues since).length + (start.live.erase h).size := by
  have listed : ∀ i < 2147483646, Handle.succ^[i + 1] h ∈ issues since ++ (start.live.erase h).keys := by
    intro i less
    rcases swept.again done i less with issued | live
    · exact List.mem_append_left _ issued
    · have other : Handle.succ^[i + 1] h ≠ h := Handle.iterate_ne i.succ_pos (by omega)
      refine List.mem_append_right _ (Std.ExtTreeMap.mem_keys.mpr (Std.ExtTreeMap.mem_erase.mpr ⟨?_, live⟩))
      exact fun same => other (Std.LawfulEqCmp.eq_of_compare same).symm
  have count := Handle.count_le (by decide) listed
  rwa [List.length_append, Std.ExtTreeMap.length_keys] at count

end Swept

theorem exists_issue (issued : h ∈ issues as) (done : performAll turns t ops = some (as, t')) :
    ∃ bytes early es ls t₁ t₂, performAll turns t early = some (es, t₁) ∧
      t₁.perform turns (.insert bytes) = some (.issued h, t₂) ∧ as = es ++ .issued h :: ls := by
  induction ops generalizing t as with
  | nil =>
      cases done
      cases issued
  | cons op ops ih =>
      obtain ⟨a, t₁, bs, first, rest, rfl⟩ := performAll_cons_cases done
      obtain ⟨b, among, same⟩ := List.mem_filterMap.mp issued
      rcases List.mem_cons.mp among with rfl | later
      · rcases perform_cases first with ⟨bytes, rfl⟩ | ⟨silent, -, -⟩
        · cases b with
          | issued k =>
              cases same
              exact ⟨bytes, [], [], bs, t, t₁, rfl, first, rfl⟩
          | content bytes => cases same
          | written => cases same
          | refused e => cases same
        · rw [silent] at same
          cases same
      · obtain ⟨bytes, early, es, ls, t₂, t₃, before, now, split⟩ :=
          ih (List.mem_filterMap.mpr ⟨b, later, same⟩) rest
        refine ⟨bytes, op :: early, a :: es, ls, t₂, t₃, ?_, now, congrArg _ split⟩
        rw [performAll, first]
        dsimp only
        rw [before]
        rfl

/-! ## Dead handles -/

theorem perform_dead (dead : h ∉ t.live) (given : op.handle? = some h) :
    t.perform turns op = some (.refused (.invalidBuffer h), t) := by
  have none : t.live[h]? = none := Std.ExtTreeMap.getElem?_eq_none dead
  cases op with
  | insert bytes => cases given
  | get k =>
      cases given
      rw [perform, get, none]
      rfl
  | take k =>
      cases given
      rw [perform, take, none]
      rfl
  | write k f =>
      cases given
      rw [perform, get, none]

theorem dead_take (done : t.perform turns (.take h) = some (a, t')) : h ∉ t'.live := by
  cases done
  rw [take]
  split
  · exact fun live => (Std.ExtTreeMap.mem_erase.mp live).1 Std.ReflCmp.compare_self
  · next none =>
      rw [Std.ExtTreeMap.mem_iff_isSome_getElem?, none]
      exact Bool.false_ne_true

/-- Unless it is issued, a dead handle stays dead. -/
theorem dead_step (dead : h ∉ t.live) (silent : a.issue? ≠ some h) (done : t.perform turns op = some (a, t')) :
    h ∉ t'.live := by
  intro live
  rcases perform_cases done with ⟨bytes, rfl⟩ | ⟨-, -, kept⟩
  · obtain ⟨d, rfl, -, -, fresh⟩ := perform_insert_cases done
    rcases fresh h live with rfl | old
    · exact silent rfl
    · exact dead old
  · exact dead (kept h live)

/-- What is dead at first, or taken, stays dead if it is not issued. -/
theorem dead_run (silent : h ∉ issues as) (done : performAll turns t ops = some (as, t'))
    (dead : h ∉ t.live ∨ ∃ a, (Op.take h, a) ∈ ops.zip as) : h ∉ t'.live := by
  induction ops generalizing t as with
  | nil =>
      cases done
      exact dead.resolve_right fun ⟨_, among⟩ => by cases among
  | cons op ops ih =>
      obtain ⟨a, t₁, bs, first, rest, rfl⟩ := performAll_cons_cases done
      have apart : a.issue? ≠ some h ∧ h ∉ issues bs := by
        constructor
        · exact fun same => silent (List.mem_filterMap.mpr ⟨a, List.mem_cons_self, same⟩)
        · intro later
          obtain ⟨b, among, same⟩ := List.mem_filterMap.mp later
          exact silent (List.mem_filterMap.mpr ⟨b, List.mem_cons_of_mem a among, same⟩)
      refine ih apart.2 rest ?_
      rcases dead with dead | ⟨b, among⟩
      · exact .inl (dead_step dead apart.1 first)
      · rcases List.mem_cons.mp among with now | later
        · cases now
          exact .inl (dead_take first)
        · exact .inr ⟨b, later⟩

/-! ## A cycle -/

/-- Take two insertions that issue the same handle. Every other positive handle was issued in between
or was live at the first, so at least as many insertions lie between them as there are positive handles
but for this one and those of the other live buffers. As long as the handle is not issued again, once
taken it is refused by whatever is given it. -/
theorem reissued_after_cycle {bs : List Answer} {bytes : ByteArray} {t₁ t₂ : Buffers}
    (first : t.perform turns (.insert bytes) = some (.issued h, t₁))
    (run : performAll turns t₁ ops = some (bs, t₂)) :
    (∀ bytes t₃, t₂.perform turns (.insert bytes) = some (.issued h, t₃) →
      (∀ k : Handle, 0 < k.toInt → k ≠ h → k ∈ issues bs ∨ k ∈ t₁.live) ∧
        2147483646 ≤ (issues bs).length + (t₁.live.erase h).size) ∧
    ((issues bs).length + (t₁.live.erase h).size ≤ 2147483646 → h ∉ issues bs) ∧
    (h ∉ issues bs → (∃ bytes, (Op.take h, Answer.content bytes) ∈ ops.zip bs) →
      ∀ op : Op, op.handle? = some h → t₂.perform turns op = some (.refused (.invalidBuffer h), t₂)) := by
  obtain ⟨d, same, counter, -⟩ := perform_insert_cases first
  rw [← Answer.issued.inj same] at counter
  have positive : 0 < h.toInt := by
    rw [Answer.issued.inj same, Handle.toInt_iterate_succ t.nonneg]
    have nonneg := t.nonneg
    omega
  have nonneg : 0 ≤ h.toInt := Int.le_of_lt positive
  have swept {ops : List Op} {as : List Answer} {t : Buffers} (run : performAll turns t₁ ops = some (as, t)) :
      Swept t₁ as h t := by
    have start := Swept.refl t₁
    rw [counter] at start
    exact start.run run
  refine ⟨fun bytes t₃ again => ⟨fun k above other => ?_, (swept run).again_count again⟩, fun few issued => ?_,
    fun silent taken op given => perform_dead (dead_run silent run (.inr ?_)) given⟩
  · have turn := Handle.iterate_ahead nonneg above
    have bound : Handle.ahead h k < 2147483647 := Int.emod_lt_of_pos _ (by decide)
    have start := Handle.ahead_nonneg h k
    have early : (Handle.ahead h k).toNat < 2147483646 := by
      by_contra late
      -- With the last step the counter is back at the handle.
      refine other ?_
      rw [← turn, ← Int32.toInt_inj, Handle.toInt_iterate_succ nonneg]
      have last := Handle.toInt_le h
      omega
    rw [← turn]
    exact (swept run).again again _ early
  · obtain ⟨bytes, early, es, ls, t₄, t₅, before, now, rfl⟩ := exists_issue issued run
    have count := (swept before).again_count now
    have more : issues (es ++ .issued h :: ls) = issues es ++ h :: issues ls := issues_append _ _
    rw [more, List.length_append, List.length_cons] at few
    omega
  · obtain ⟨bytes, among⟩ := taken
    exact ⟨_, among⟩

/-- Buffers that are inserted and taken at once. -/
def rounds : ℕ → Handle → List Op
  | 0, _ => []
  | n + 1, h => .insert .empty :: .take h.succ :: rounds n h.succ

def roundAnswers : ℕ → Handle → List Answer
  | 0, _ => []
  | n + 1, h => .issued h.succ :: .content .empty :: roundAnswers n h.succ

theorem length_issues_roundAnswers (n : ℕ) (h : Handle) : (issues (roundAnswers n h)).length = n := by
  induction n generalizing h with
  | zero => rfl
  | succ n ih => exact congrArg (· + 1) (ih h.succ)

theorem perform_insert_empty {h : Handle} (nonneg : 0 ≤ h.toInt) (bytes : ByteArray) :
    perform 1 ⟨h, {}, nonneg⟩ (.insert bytes) =
      some (.issued h.succ, ⟨h.succ, ({} : Buffers).live.insert h.succ bytes, Handle.succ_nonneg nonneg⟩) := by
  have free : h.succ ∉ ({} : Buffers).live := Std.ExtTreeMap.not_mem_empty
  have found : probe {} 1 h = some h.succ := by
    rw [probe, next?_eq]
    dsimp only
    rw [if_neg free]
  simp [perform, found]

theorem perform_take_only {h : Handle} (nonneg : 0 ≤ h.toInt) (bytes : ByteArray) :
    perform 1 ⟨h, ({} : Buffers).live.insert h bytes, nonneg⟩ (.take h) =
      some (.content bytes, ⟨h, {}, nonneg⟩) := by
  have held : (({} : Buffers).live.insert h bytes)[h]? = some bytes := Std.ExtTreeMap.getElem?_insert_self
  have none : (({} : Buffers).live.insert h bytes).erase h = {} := by
    refine Std.ExtTreeMap.ext_getElem? fun k => ?_
    rw [Std.ExtTreeMap.getElem?_erase, Std.ExtTreeMap.getElem?_insert]
    split
    · exact Std.ExtTreeMap.getElem?_empty.symm
    · rfl
  rw [perform, take, held]
  dsimp only
  rw [none]
  rfl

theorem perform_rounds (n : ℕ) {h : Handle} (nonneg : 0 ≤ h.toInt) :
    ∃ nonneg' : 0 ≤ (Handle.succ^[n] h).toInt,
      performAll 1 ⟨h, {}, nonneg⟩ (rounds n h) = some (roundAnswers n h, ⟨Handle.succ^[n] h, {}, nonneg'⟩) := by
  induction n generalizing h with
  | zero => exact ⟨nonneg, rfl⟩
  | succ n ih =>
      obtain ⟨nonneg', later⟩ := ih (Handle.succ_nonneg nonneg)
      refine ⟨nonneg', ?_⟩
      rw [rounds, performAll, perform_insert_empty]
      dsimp only
      rw [performAll, perform_take_only]
      dsimp only
      rw [later]
      rfl

/-- After the last handle the first comes round, and as many insertions lie between as there must. -/
theorem first_comes_round : ∃ bs t₁ t₂ t₃,
    perform 1 {} (.insert .empty) = some (.issued 1, t₁) ∧
    performAll 1 t₁ (.take 1 :: rounds 2147483646 1) = some (bs, t₂) ∧
    t₂.perform 1 (.insert .empty) = some (.issued 1, t₃) ∧
    (∀ k : Handle, 0 < k.toInt → k ≠ 1 → k ∈ issues bs ∨ k ∈ t₁.live) ∧
    2147483646 ≤ (issues bs).length + (t₁.live.erase 1).size ∧ (issues bs).length = 2147483646 ∧
    t₂.perform 1 (.get 1) = some (.refused (.invalidBuffer 1), t₂) := by
  obtain ⟨n, last⟩ : ∃ n : ℕ, n = 2147483646 := ⟨_, rfl⟩
  have counter : Handle.succ^[n] 1 = Handle.last := by
    have one : (1 : Handle).toInt = 1 := rfl
    rw [← Int32.toInt_inj, Handle.toInt_iterate (by omega), Handle.toInt_last]
    omega
  have one : 0 ≤ (1 : Handle).toInt := by decide
  have first : perform 1 {} (.insert .empty) =
      some (.issued 1, ⟨1, ({} : Buffers).live.insert 1 .empty, one⟩) :=
    perform_insert_empty (h := 0) (by decide) .empty
  have run : performAll 1 ⟨1, ({} : Buffers).live.insert 1 .empty, one⟩ (.take 1 :: rounds n 1) =
      some (.content .empty :: roundAnswers n 1, ⟨Handle.last, {}, by decide⟩) := by
    obtain ⟨_, later⟩ := perform_rounds n one
    simp only [counter] at later
    rw [performAll, perform_take_only]
    dsimp only
    rw [later]
    rfl
  have again := perform_insert_empty (h := Handle.last) (by decide) .empty
  simp only [Handle.succ_last] at again
  have count : (issues (.content .empty :: roundAnswers n 1)).length = n := length_issues_roundAnswers n 1
  obtain ⟨cycle, few, dead⟩ := reissued_after_cycle first run
  obtain ⟨known, least⟩ := cycle _ _ again
  have others : ((({} : Buffers).live.insert 1 .empty).erase (1 : Handle)).size = 0 := by decide +kernel
  rw [← last]
  refine ⟨_, _, _, _, first, run, again, known, by omega, count, dead (few ?_) ⟨.empty, List.mem_cons_self⟩ _ rfl⟩
  rw [count, others]
  omega

end GuestHost.Buffers
