import GuestHost.Proofs.Handles

/-! A table of buffers is a finite map with fresh handles. Whatever is done with it from
the empty table on, it answers as a ledger that knows what each live handle holds, which
handle was issued last, and how many buffers came and went. -/

namespace GuestHost.Buffers

/-! ## What the table does -/

/-- The handle after another as the host computes it: there is no answer if the sum is not
a handle. -/
def next? (h : Handle) : Option Handle :=
  if h = Handle.last then some 1
  else if h.toInt + 1 ≤ Int32.maxValue.toInt then some (h + 1)
  else none

theorem next?_eq (h : Handle) : next? h = some h.succ := by
  by_cases last : h = Handle.last
  · rw [next?, if_pos last, Handle.succ, if_pos last]
  · have sum := Handle.toInt_le h.succ
    rw [Handle.toInt_succ last] at sum
    have fits : h.toInt + 1 ≤ Int32.maxValue.toInt := sum
    rw [next?, if_neg last, if_pos fits, Handle.succ, if_neg last]

/-- The search for a fresh handle, as a loop. There is no answer if it does not come to an
end within a number of turns. -/
def probe (live : Std.ExtTreeMap Handle ByteArray) : Nat → Handle → Option Handle
  | 0, _ => none
  | n + 1, h =>
    match next? h with
    | none => none
    | some next => if next ∈ live then probe live n next else some next

/-- A search that starts from no negative handle finds none. -/
theorem probe_nonneg {live : Std.ExtTreeMap Handle ByteArray} {n : Nat} {h k : Handle}
    (nonneg : 0 ≤ h.toInt) (found : probe live n h = some k) : 0 ≤ k.toInt := by
  induction n generalizing h with
  | zero => cases found
  | succ n ih =>
      rw [probe, next?_eq] at found
      dsimp only at found
      split at found
      · exact ih (Handle.succ_nonneg nonneg) found
      · cases found
        exact Handle.succ_nonneg nonneg

/-- One thing to do with a table. A write may replace the bytes by any function of them. -/
inductive Op
  | insert (bytes : ByteArray)
  | get (h : Handle)
  | take (h : Handle)
  | write (h : Handle) (f : ByteArray → ByteArray)

/-- The handle that an operation is given. -/
def Op.handle? : Op → Option Handle
  | .insert _ => none
  | .get h | .take h | .write h _ => some h

/-- What an operation answers: the handle it issued, the bytes it was asked for, nothing,
or the reason why it failed. -/
inductive Answer
  | issued (h : Handle)
  | content (bytes : ByteArray)
  | written
  | refused (e : Error)

/-- The answer that gives bytes or says why there are none. -/
def Answer.of : Except Error ByteArray → Answer
  | .ok bytes => .content bytes
  | .error e => .refused e

/-- Does an operation. A search for a handle may take so many turns. -/
def perform (turns : Nat) (t : Buffers) : Op → Option (Answer × Buffers)
  | .insert bytes =>
    (probe t.live turns t.issued).pmap (fun h nonneg => (.issued h, ⟨h, t.live.insert h bytes, nonneg⟩))
      fun _ found => probe_nonneg t.nonneg found
  | .get h => some (.of (t.get h), t)
  | .take h => some (.of (t.take h).1, (t.take h).2)
  | .write h f =>
    match t.get h with
    | .ok _ => some (.written, t.modify h f)
    | .error e => some (.refused e, t)

/-- Does operations one after the other. -/
def performAll (turns : Nat) : Buffers → List Op → Option (List Answer × Buffers)
  | t, [] => some ([], t)
  | t, op :: ops =>
    match t.perform turns op with
    | none => none
    | some (a, t) => (performAll turns t ops).map fun (as, t) => (a :: as, t)

/-- An insertion that is answered stores the bytes under what the search ends at. -/
theorem perform_insert_some {turns : Nat} {t t' : Buffers} {bytes : ByteArray} {a : Answer}
    (done : t.perform turns (.insert bytes) = some (a, t')) :
    ∃ k, ∃ nonneg : 0 ≤ k.toInt, probe t.live turns t.issued = some k ∧ a = .issued k ∧
      t' = ⟨k, t.live.insert k bytes, nonneg⟩ := by
  rw [perform] at done
  obtain ⟨k, nonneg, found, same⟩ := Option.pmap_eq_some_iff.mp done
  cases same
  exact ⟨k, nonneg, found, rfl, rfl⟩

/-! ## What it should do -/

/-- What is known of a table: the bytes under every live handle, the handle issued last,
and how many buffers were inserted and taken. -/
structure Ledger where
  held : Handle → Option ByteArray := fun _ => none
  last : Handle := 0
  inserted : Nat := 0
  taken : Nat := 0

namespace Ledger

/-- The ledger after bytes were inserted under a handle. -/
def issue (m : Ledger) (h : Handle) (bytes : ByteArray) : Ledger :=
  { m with held := Function.update m.held h (some bytes), last := h, inserted := m.inserted + 1 }

/-- The ledger after a live handle was taken. -/
def drop (m : Ledger) (h : Handle) : Ledger :=
  { m with held := Function.update m.held h none, taken := m.taken + 1 }

/-- The ledger after the bytes under a live handle were replaced. -/
def replace (m : Ledger) (h : Handle) (bytes : ByteArray) : Ledger :=
  { m with held := Function.update m.held h (some bytes) }

/-- The handle is positive and not live, and comes before all others like it when the
positive handles are gone through in a circle, from the one issued last on. -/
structure FirstFree (m : Ledger) (h : Handle) : Prop where
  positive : 0 < h.toInt
  free : m.held h = none
  first : ∀ k : Handle, 0 < k.toInt → m.held k = none → Handle.ahead m.last h ≤ Handle.ahead m.last k

/-- What an operation answers and what it changes. -/
inductive Step (m : Ledger) : Op → Answer → Ledger → Prop
  | insert {bytes : ByteArray} {h : Handle} (free : m.FirstFree h) :
      Step m (.insert bytes) (.issued h) (m.issue h bytes)
  | get {bytes : ByteArray} {h : Handle} (live : m.held h = some bytes) :
      Step m (.get h) (.content bytes) m
  | take {bytes : ByteArray} {h : Handle} (live : m.held h = some bytes) :
      Step m (.take h) (.content bytes) (m.drop h)
  | write {bytes : ByteArray} {h : Handle} {f : ByteArray → ByteArray}
      (live : m.held h = some bytes) : Step m (.write h f) .written (m.replace h (f bytes))
  | dead {op : Op} {h : Handle} (given : op.handle? = some h) (dead : m.held h = none) :
      Step m op (.refused (.invalidBuffer h)) m

/-- Operations with their answers, one after the other. -/
inductive Steps : Ledger → List Op → List Answer → Ledger → Prop
  | nil {m : Ledger} : Steps m [] [] m
  | cons {m m₁ m₂ : Ledger} {op : Op} {a : Answer} {ops : List Op} {as : List Answer}
      (first : m.Step op a m₁) (rest : Steps m₁ ops as m₂) : Steps m (op :: ops) (a :: as) m₂

end Ledger

/-- The table is as the ledger says, and its size is the number of buffers that came and
did not go. -/
structure Refines (t : Buffers) (m : Ledger) : Prop where
  held : ∀ h, t.live[h]? = m.held h
  last : t.issued = m.last
  size : t.size + m.taken = m.inserted

/-! ## The search -/

/-- The search passes over live handles and ends at the first that is not. -/
theorem probe_eq_some {live : Std.ExtTreeMap Handle ByteArray} {n : Nat} {h k : Handle}
    (found : probe live n h = some k) :
    ∃ d, k = Handle.succ^[d + 1] h ∧ k ∉ live ∧ ∀ i < d, Handle.succ^[i + 1] h ∈ live := by
  induction n generalizing h with
  | zero => cases found
  | succ n ih =>
      rw [probe, next?_eq] at found
      dsimp only at found
      by_cases busy : h.succ ∈ live
      · rw [if_pos busy] at found
        obtain ⟨d, hk, free, passed⟩ := ih found
        refine ⟨d + 1, hk, free, fun i hi => ?_⟩
        cases i with
        | zero => exact busy
        | succ i => exact passed i (Nat.lt_of_succ_lt_succ hi)
      · rw [if_neg busy] at found
        cases found
        exact ⟨0, rfl, busy, fun i hi => absurd hi (Nat.not_lt_zero i)⟩

/-- With turns enough the search finds what passing over `n` handles finds. -/
theorem probe_eq_freeAfter {live : Std.ExtTreeMap Handle ByteArray} {n turns : Nat} {h : Handle}
    (free : freeAfter live n h ∉ live) (enough : n < turns) :
    probe live turns h = some (freeAfter live n h) := by
  induction n generalizing h turns with
  | zero =>
      obtain ⟨turns, rfl⟩ := Nat.exists_eq_add_one_of_ne_zero (Nat.ne_zero_of_lt enough)
      rw [freeAfter] at free ⊢
      rw [probe, next?_eq]
      dsimp only
      rw [if_neg free]
  | succ n ih =>
      obtain ⟨turns, rfl⟩ := Nat.exists_eq_add_one_of_ne_zero (Nat.ne_zero_of_lt enough)
      rw [freeAfter] at free ⊢
      rw [probe, next?_eq]
      dsimp only
      by_cases busy : h.succ ∈ live
      · rw [if_pos busy] at free ⊢
        rw [if_pos busy, ih free (Nat.lt_of_succ_lt_succ enough)]
      · rw [if_neg busy, if_neg busy]

theorem freeAfter_passed {live : Std.ExtTreeMap Handle ByteArray} {d n : Nat} {h : Handle} (enough : d ≤ n)
    (free : Handle.succ^[d + 1] h ∉ live) (passed : ∀ i < d, Handle.succ^[i + 1] h ∈ live) :
    freeAfter live n h = Handle.succ^[d + 1] h := by
  induction d generalizing n h with
  | zero =>
      cases n with
      | zero => rfl
      | succ n => exact if_neg free
  | succ d ih =>
      cases n with
      | zero => cases enough
      | succ n =>
          have busy : h.succ ∈ live := passed 0 d.succ_pos
          rw [freeAfter, if_pos busy]
          exact ih (Nat.le_of_succ_le_succ enough) free fun i less => passed (i + 1) (Nat.succ_lt_succ less)

/-- The handle that the search ends at is the fresh one. -/
theorem probe_fresh {t : Buffers} {n : Nat} {k : Handle} (found : probe t.live n t.issued = some k) :
    t.fresh = k := by
  obtain ⟨d, rfl, free, passed⟩ := probe_eq_some found
  have few : d ≤ 2147483647 := by
    by_contra round
    -- The same handle had its turn a round before, and was live.
    have same : Handle.succ^[d % 2147483647 + 1] t.issued = Handle.succ^[d + 1] t.issued := by
      rw [← Int32.toInt_inj, Handle.toInt_iterate_succ t.nonneg, Handle.toInt_iterate_succ t.nonneg]
      omega
    exact free (same ▸ passed (d % 2147483647) (by omega))
  exact freeAfter_passed (passed_le few passed) free passed

/-! ## Steps -/

namespace Refines

variable {t t' : Buffers} {m : Ledger}

theorem live_iff (h : t.Refines m) (k : Handle) : k ∈ t.live ↔ m.held k ≠ none := by
  rw [← h.held, Std.ExtTreeMap.mem_iff_isSome_getElem?, Option.isSome_iff_ne_none]

theorem firstFree (h : t.Refines m) {n : Nat} {k : Handle}
    (found : probe t.live n t.issued = some k) : m.FirstFree k := by
  obtain ⟨d, rfl, free, passed⟩ := probe_eq_some found
  have nonneg := t.nonneg
  refine ⟨?_, ?_, fun k positive unused => ?_⟩
  · rw [Handle.toInt_iterate_succ nonneg]
    omega
  · by_contra busy
    exact free ((h.live_iff _).mpr busy)
  · by_contra sooner
    -- A handle whose turn comes before was passed over, so it is live.
    rw [← h.last, Handle.ahead_iterate nonneg] at sooner
    have start := Handle.ahead_nonneg t.issued k
    have turn := Handle.iterate_ahead nonneg positive
    have among : (Handle.ahead t.issued k).toNat < d := by
      omega
    have live := passed _ among
    rw [turn] at live
    exact (h.live_iff k).mp live unused

/-- A handle that is not live when its turn comes is the first that is free. -/
theorem firstFree_fresh (h : t.Refines m) (free : t.fresh ∉ t.live) : m.FirstFree t.fresh :=
  h.firstFree (probe_eq_freeAfter free (Nat.lt_succ_self t.live.size))

theorem get_live {bytes : ByteArray} {k : Handle} (h : t.Refines m) (live : m.held k = some bytes) :
    t.get k = .ok bytes := by
  rw [get, h.held, live]

theorem get_dead {k : Handle} (h : t.Refines m) (dead : m.held k = none) :
    t.get k = .error (.invalidBuffer k) := by
  rw [get, h.held, dead]

theorem take_live {bytes : ByteArray} {k : Handle} (h : t.Refines m) (live : m.held k = some bytes) :
    t.take k = (.ok bytes, { t with live := t.live.erase k }) := by
  rw [Buffers.take, h.held, live]

theorem take_dead {k : Handle} (h : t.Refines m) (dead : m.held k = none) :
    t.take k = (.error (.invalidBuffer k), t) := by
  rw [Buffers.take, h.held, dead]

theorem insert {bytes : ByteArray} {k : Handle} (h : t.Refines m) (free : m.FirstFree k) :
    Refines ⟨k, t.live.insert k bytes, Int.le_of_lt free.positive⟩ (m.issue k bytes) where
  held := by
    intro i
    rw [Std.ExtTreeMap.getElem?_insert, h.held]
    by_cases same : k = i
    · simp [Ledger.issue, same]
    · simp [Ledger.issue, same, Function.update_of_ne (Ne.symm same)]
  last := rfl
  size := by
    have unused : ¬t.live.contains k := fun live =>
      (h.live_iff k).mp (Std.ExtTreeMap.mem_iff_contains.mpr live) free.free
    have size := h.size
    rw [Buffers.size] at size ⊢
    rw [Std.ExtTreeMap.size_insert, if_neg unused, Ledger.issue]
    dsimp only
    omega

theorem take {bytes : ByteArray} {k : Handle} (h : t.Refines m) (live : m.held k = some bytes) :
    Refines { t with live := t.live.erase k } (m.drop k) where
  held := by
    intro i
    rw [Std.ExtTreeMap.getElem?_erase, h.held]
    by_cases same : k = i
    · simp [Ledger.drop, same]
    · simp [Ledger.drop, same, Function.update_of_ne (Ne.symm same)]
  last := h.last
  size := by
    have used : k ∈ t.live := (h.live_iff k).mpr (by simp [live])
    have some_live : 0 < t.live.size := by
      rw [← Std.ExtTreeMap.length_keys]
      exact List.length_pos_of_mem (Std.ExtTreeMap.mem_keys.mpr used)
    have size := h.size
    rw [Buffers.size] at size ⊢
    rw [Std.ExtTreeMap.size_erase, if_pos (Std.ExtTreeMap.mem_iff_contains.mp used), Ledger.drop]
    dsimp only
    omega

theorem write {bytes : ByteArray} {k : Handle} (h : t.Refines m) (live : m.held k = some bytes)
    (f : ByteArray → ByteArray) : Refines (t.modify k f) (m.replace k (f bytes)) where
  held := by
    intro i
    rw [modify, Std.ExtTreeMap.getElem?_modify]
    by_cases same : k = i
    · subst same
      simp [Ledger.replace, h.held, live]
    · simp [Ledger.replace, same, h.held, Function.update_of_ne (Ne.symm same)]
  last := h.last
  size := by
    have size := h.size
    rw [Buffers.size] at size ⊢
    rw [modify, Std.ExtTreeMap.size_modify]
    exact size

/-- Every operation answers and changes what the ledger says. -/
theorem step {turns : Nat} {op : Op} {a : Answer} (h : t.Refines m)
    (done : t.perform turns op = some (a, t')) : ∃ m', m.Step op a m' ∧ t'.Refines m' := by
  cases op with
  | insert bytes =>
      obtain ⟨k, _, found, rfl, rfl⟩ := perform_insert_some done
      have free := h.firstFree found
      exact ⟨_, .insert free, h.insert free⟩
  | get k =>
      cases live : m.held k with
      | some bytes =>
          rw [perform, h.get_live live] at done
          cases done
          exact ⟨m, .get live, h⟩
      | none =>
          rw [perform, h.get_dead live] at done
          cases done
          exact ⟨m, .dead rfl live, h⟩
  | take k =>
      cases live : m.held k with
      | some bytes =>
          rw [perform, h.take_live live] at done
          cases done
          exact ⟨_, .take live, h.take live⟩
      | none =>
          rw [perform, h.take_dead live] at done
          cases done
          exact ⟨m, .dead rfl live, h⟩
  | write k f =>
      cases live : m.held k with
      | some bytes =>
          rw [perform, h.get_live live] at done
          cases done
          exact ⟨_, .write live, h.write live f⟩
      | none =>
          rw [perform, h.get_dead live] at done
          cases done
          exact ⟨m, .dead rfl live, h⟩

theorem steps {turns : Nat} {ops : List Op} {as : List Answer} (h : t.Refines m)
    (done : performAll turns t ops = some (as, t')) : ∃ m', m.Steps ops as m' ∧ t'.Refines m' := by
  induction ops generalizing t m as with
  | nil =>
      cases done
      exact ⟨m, .nil, h⟩
  | cons op ops ih =>
      rw [performAll] at done
      split at done
      · cases done
      · next first =>
          obtain ⟨⟨as', t₂⟩, rest, done⟩ := Option.map_eq_some_iff.mp done
          cases done
          obtain ⟨m₁, step, h₁⟩ := h.step first
          obtain ⟨m₂, steps, h₂⟩ := ih h₁ rest
          exact ⟨m₂, .cons step steps, h₂⟩

end Refines

theorem refines_empty : Refines {} {} where
  held _ := Std.ExtTreeMap.getElem?_empty
  last := rfl
  size := by simp [Buffers.size]

/-- One turn more than there are live buffers is enough for the search, if it ends at all. -/
theorem perform_insert {t : Buffers} {turns : Nat} (enough : t.size < turns) (bytes : ByteArray) :
    t.perform turns (.insert bytes) = (t.insert bytes).map fun (h, t) => (.issued h, t) := by
  by_cases busy : t.fresh ∈ t.live
  · have none : probe t.live turns t.issued = none := by
      refine Option.eq_none_iff_forall_ne_some.mpr fun k found => ?_
      obtain rfl := probe_fresh found
      obtain ⟨_, _, free, _⟩ := probe_eq_some found
      exact free busy
    rw [insert, if_pos busy]
    simp [perform, none]
  · have found : probe t.live turns t.issued = some t.fresh := probe_eq_freeAfter busy enough
    rw [insert_of_free busy]
    simp [perform, found]

theorem insert_isSome {t : Buffers} (room : t.size < 2147483647) (bytes : ByteArray) :
    (t.insert bytes).isSome = true := by
  rw [insert_of_free (fresh_not_mem room)]
  rfl

/-- Whatever was done with a table since it was empty, it answered as a ledger does and is
as the ledger says. As long as not all positive handles are live, the search of the next
insertion comes to an end without an overflow, and after one turn more than there are
live buffers at the latest. -/
theorem operations_refine {turns : Nat} {ops : List Op} {as : List Answer} {t : Buffers}
    (done : performAll turns {} ops = some (as, t)) :
    (∃ m, Ledger.Steps {} ops as m ∧ t.Refines m) ∧
      ∀ bytes, (t.size < 2147483647 → (t.insert bytes).isSome = true) ∧
        ∀ turns, t.size < turns →
          t.perform turns (.insert bytes) = (t.insert bytes).map fun (h, t) => (.issued h, t) := by
  obtain ⟨m, steps, refines⟩ := refines_empty.steps done
  exact ⟨⟨m, steps, refines⟩, fun bytes =>
    ⟨fun room => insert_isSome room bytes, fun _ enough => perform_insert enough bytes⟩⟩

/-- A handle that was taken is not issued again at once, and what is written is read. -/
def sixOps : List Op :=
  [.insert ⟨#[97]⟩, .take 1, .insert ⟨#[98]⟩, .get 1, .write 2 fun bytes => bytes.push 99, .get 2]

def sixAnswers : List Answer :=
  [.issued 1, .content ⟨#[97]⟩, .issued 2, .refused (.invalidBuffer 1), .written, .content ⟨#[98, 99]⟩]

theorem six_refined : ∃ t, performAll 2 {} sixOps = some (sixAnswers, t) ∧
    (∃ m, Ledger.Steps {} sixOps sixAnswers m ∧ t.Refines m) ∧
    ∀ bytes, (t.size < 2147483647 → (t.insert bytes).isSome = true) ∧
      ∀ turns, t.size < turns →
        t.perform turns (.insert bytes) = (t.insert bytes).map fun (h, t) => (.issued h, t) := by
  have answers : (performAll 2 {} sixOps).map Prod.fst = some sixAnswers := by rfl
  obtain ⟨⟨as, t⟩, done, same⟩ := Option.map_eq_some_iff.mp answers
  cases same
  exact ⟨t, done, operations_refine done⟩

end GuestHost.Buffers
