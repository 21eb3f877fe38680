import GuestHost.Proofs.Session.Decoding

/-! What a call returns whose entry returns a reference to an array: the words in memory behind the
length, each of them lifted, as many as there are. A length that counts as negative is taken for
none. -/

namespace GuestHost

open Machine
open Support (Place Space Call Work Planted Standing space?)

namespace Machine.Memory

/-! ## The decoding of an array -/

/-- The address of an element, as words tell it. -/
def elementAt (a : UInt32) (i : Nat) : Nat := (a.toNat + 4 + 4 * i) % UInt32.size

/-- The array has the reference as an element. -/
def Refers (m : Memory) (a v : UInt32) : Prop :=
  ∃ n i, m.word? a.toNat = some n ∧ i < n.toNat ∧ m.word? (elementAt a i) = some v

/-- What an element of an array stands for. -/
def element (m : Memory) (a : UInt32) (i : Nat) : Except Error Value :=
  match m.word? (elementAt a i) with
  | none => .error (.outside "any_array_get")
  | some w => m.decode w

/-- What the elements from an index on stand for, a number of them. -/
def elements (m : Memory) (a : UInt32) : Nat → Nat → Except Error (List Value)
  | _, 0 => .ok []
  | i, n + 1 => do
    let v ← m.element a i
    let vs ← m.elements a (i + 1) n
    return v :: vs

/-- What a reference to an array stands for. -/
def unpacked (m : Memory) (a : UInt32) : Except Error Returned :=
  if a = 0 then .ok .empty
  else
    match m.word? a.toNat with
    | none => .error (.outside "any_array_size")
    | some n => if n.toInt32 < 0 then .ok .empty else (m.elements a 0 n.toNat).map Returned.ofList

variable {m : Memory} {a : UInt32}

/-- No element is left out. -/
theorem elements_ok_iff {i n : Nat} {vs : List Value} : m.elements a i n = .ok vs ↔
    vs.length = n ∧ ∀ j v, vs[j]? = some v → m.element a (i + j) = .ok v := by
  induction n generalizing i vs with
  | zero =>
      constructor
      · intro done
        cases done
        exact ⟨rfl, fun j v found => by simp at found⟩
      · rintro ⟨length, -⟩
        rw [List.length_eq_zero_iff.mp length]
        rfl
  | succ n ih =>
      constructor
      · intro done
        obtain ⟨v, first, done⟩ := bind_eq_ok done
        obtain ⟨vs, rest, done⟩ := bind_eq_ok done
        cases done
        obtain ⟨length, each⟩ := ih.mp rest
        refine ⟨by rw [List.length_cons, length], fun j w found => ?_⟩
        cases j with
        | zero =>
            cases found
            exact first
        | succ j =>
            rw [Nat.add_comm j 1, ← Nat.add_assoc]
            exact each j w found
      · rintro ⟨length, each⟩
        obtain ⟨v, vs, rfl⟩ := List.exists_cons_of_length_eq_add_one length
        have first : m.element a i = .ok v := each 0 v rfl
        have rest : m.elements a (i + 1) n = .ok vs := by
          refine ih.mpr ⟨Nat.succ.inj length, fun j w found => ?_⟩
          rw [Nat.add_assoc, Nat.add_comm 1 j]
          exact each (j + 1) w found
        rw [elements, first]
        change (m.elements a (i + 1) n >>= fun vs => .ok (v :: vs)) = _
        rw [rest]
        rfl

/-- As many values come as the length says, unless it counts as negative. -/
theorem unpacked_whole {n : UInt32} {r : Returned} (some_a : a ≠ 0) (found : m.word? a.toNat = some n)
    (small : n.toNat < 2147483648) (done : m.unpacked a = .ok r) :
    r.toList.length = n.toNat ∧ ∀ i v, r.toList[i]? = some v → m.element a i = .ok v := by
  have positive : ¬ n.toInt32 < 0 := mt Support.Work.toInt32_neg_iff.mp (Nat.not_le.mpr small)
  rw [unpacked, if_neg some_a, found] at done
  dsimp only at done
  rw [if_neg positive] at done
  cases lifted : m.elements a 0 n.toNat with
  | error e =>
      rw [lifted] at done
      cases done
  | ok vs =>
      rw [lifted] at done
      cases done
      obtain ⟨length, each⟩ := elements_ok_iff.mp lifted
      rw [Returned.toList_ofList]
      refine ⟨length, fun i v there => ?_⟩
      rw [← Nat.zero_add i]
      exact each i v there

end Machine.Memory

namespace Support.Work

variable {x y : Space} {a i w : UInt32}

/-! ## The helpers' work -/

theorem toNat_slot_mod (a i : UInt32) :
    (a + 4 + i <<< (2 : UInt32)).toNat = Memory.elementAt a i.toNat := by
  have four : (4 : UInt32).toNat = 4 := rfl
  have two : (2 : UInt32).toNat % 32 = 2 := rfl
  rw [Memory.elementAt, UInt32.toNat_add, UInt32.toNat_add, UInt32.toNat_shiftLeft, four, two, Nat.shiftLeft_eq]
  unfold UInt32.size
  omega

/-- An element below the length is what memory has at its address. -/
theorem arrayGet_below {n : UInt32} (some_a : a ≠ 0) (length : x.memory.word? a.toNat = some n) (below : i < n) :
    arrayGet a i x =
      match x.memory.word? (Memory.elementAt a i.toNat) with
      | none => (.error (.trap .memoryBounds), x)
      | some w => (.ok w, x) := by
  obtain ⟨k, fetched, rfl⟩ := fetch_word length
  have slot : slot a i x = (.ok (a + 4 + i <<< (2 : UInt32)), x) := by
    rw [Work.slot, bind_eq (require_eq (by simpa using some_a)), bind_eq fetched]
    exact bind_eq (require_eq (by simpa using below))
  rw [arrayGet, bind_eq slot, toNat_slot_mod]
  cases found : x.memory.word? (Memory.elementAt a i.toNat) with
  | none => exact bind_error (fetch_word_outside found)
  | some w =>
      obtain ⟨k', fetched', rfl⟩ := fetch_word found
      rw [bind_eq fetched']
      rfl

theorem arrayGet_fails {e : Failure} (failed : slot a i x = (.error e, x)) :
    arrayGet a i x = (.error e, x) := by
  rw [arrayGet, bind_error failed]

/-- Whatever the length, an element that is handed out is what memory has at its address. -/
theorem arrayGet_eq_ok (got : arrayGet a i x = (.ok w, y)) :
    x.memory.word? (Memory.elementAt a i.toNat) = some w := by
  by_cases some_a : a = 0
  · subst some_a
    rw [arrayGet_fails slot_nil] at got
    cases got
  · have begun : slot a i x = (fetch 4 a.toNat >>= fun n => do
        require (i < UInt32.ofNat n)
        return a + 4 + i <<< (2 : UInt32) : Work UInt32) x := by
      rw [slot, bind_eq (require_eq (by simpa using some_a))]
    cases length : x.memory.word? a.toNat with
    | none =>
        rw [arrayGet_fails (begun.trans (bind_error (fetch_word_outside length)))] at got
        cases got
    | some n =>
        obtain ⟨k, fetched, rfl⟩ := fetch_word length
        by_cases below : i < UInt32.ofNat k
        · rw [arrayGet_below some_a length below] at got
          split at got
          · cases got
          · next found =>
              cases got
              exact found
        · rw [bind_eq fetched, bind_error (require_error (by simpa using below))] at begun
          rw [arrayGet_fails begun] at got
          cases got

end Support.Work

theorem Comes.unique {α : Type} {work : Nat → Guest α} {s s₁ s₂ : Store} {r₁ r₂ : Except Error α}
    (h : Comes work s r₁ s₁) (h' : Comes work s r₂ s₂) : r₁ = r₂ ∧ s₁ = s₂ := by
  obtain ⟨n, h⟩ := h
  obtain ⟨k, h'⟩ := h'
  have same := (h _ (Nat.le_max_left n k)).symm.trans (h' _ (Nat.le_max_right n k))
  cases same
  exact ⟨rfl, rfl⟩

namespace Boundary

variable {env : Environment} {p : Place} {s t : Store} {x : Space} {a : UInt32} {i n : Nat}

/-! ## With the default capabilities -/

theorem Reads.bind {α β : Type} {refs : UInt32 → Prop} {first : Nat → Guest α} {rest : Nat → α → Guest β}
    {r : Except Error α} {r' : α → Except Error β} (h : Reads p s x refs first r)
    (h' : ∀ a t, Reads p s { x with buffers := t } refs (fun fuel => rest fuel a) (r' a)) :
    Reads p s x refs (fun fuel => first fuel >>= rest fuel) (r >>= r') := by
  rcases h with ⟨t, comes, left⟩ | ⟨starving, never⟩
  · cases r with
    | error e => exact .inl ⟨t, comes.bind_error rest, left.of_error⟩
    | ok a =>
        rcases h' a t with ⟨t', comes', left'⟩ | ⟨⟨full, string⟩, never⟩
        · exact .inl ⟨t', comes.bind comes', left'.after left.of_ok⟩
        · exact .inr ⟨⟨left.of_ok.full full, string⟩, .after comes never⟩
  · exact .inr ⟨starving, never.bind rest⟩

/-- What lies below a length is told by its word. -/
theorem toNat_index {length : UInt32} (below : i < length.toNat) : (UInt32.ofNat i).toNat = i := by
  rw [UInt32.toNat_ofNat', Nat.mod_eq_of_lt (Nat.lt_trans below length.toNat_lt)]

theorem elements_map {m : Memory} (acc : List Value) :
    (m.elements a i (n + 1)).map (acc.reverse ++ ·) =
      m.element a i >>= fun v => (m.elements a (i + 1) n).map ((v :: acc).reverse ++ ·) := by
  rw [Memory.elements]
  cases m.element a i with
  | error e => rfl
  | ok v =>
      change ((m.elements a (i + 1) n >>= fun vs => .ok (v :: vs)).map _) = (m.elements a (i + 1) n).map _
      cases m.elements a (i + 1) n with
      | error e => rfl
      | ok vs =>
          change Except.ok (acc.reverse ++ v :: vs) = Except.ok ((v :: acc).reverse ++ vs)
          simp

section

variable {length : UInt32} (h : p.Stands s) (paged : x.memory.size ≤ UInt32.size) (some_a : a ≠ 0)
  (found : x.memory.word? a.toNat = some length)

include h paged some_a found

theorem element_reads (env : Environment) (below : i < length.toNat) : Reads p s x (x.memory.Refers a)
    (fun fuel => (p.boundary env fuel).word "any_array_get" [.i32, .i32] [.i32 a, .i32 (UInt32.ofNat i)] >>=
      (p.boundary env fuel).lift) (x.memory.element a i) := by
  have index := toNat_index below
  have got := Work.arrayGet_below (i := UInt32.ofNat i) some_a found (by rwa [UInt32.lt_iff_toNat_lt, index])
  rw [index] at got
  have answers {r : Except Failure UInt32} (works : Work.arrayGet a (UInt32.ofNat i) x = (r, x)) :=
    word_gives env h.toRooted (h.performs (c := .arrayGet a (UInt32.ofNat i)) id) rfl rfl works
  rw [Memory.element]
  cases there : x.memory.word? (Memory.elementAt a i) with
  | none =>
      rw [there] at got
      exact .of_same ((answers got).bind_error _)
  | some w =>
      rw [there] at got
      refine .after (answers got) ((lift_reads env h paged w).mono ?_)
      rintro _ rfl
      exact ⟨length, i, found, below, there⟩

/-- The elements that are left are lifted one after the other, up to the first that cannot be. -/
theorem liftFrom_reads (env : Environment) (whole : i + n = length.toNat) (acc : List Value) :
    Reads p s x (x.memory.Refers a) (fun fuel => (p.boundary env fuel).liftFrom a acc i n)
      ((x.memory.elements a i n).map (acc.reverse ++ ·)) := by
  induction n generalizing x i acc with
  | zero =>
      refine .of_same (.now fun _ => ?_)
      change some (Except.ok acc.reverse, p.put s x) = some (Except.ok (acc.reverse ++ []), p.put s x)
      rw [List.append_nil]
  | succ n ih =>
      have first := element_reads h paged some_a found env (i := i) (by omega)
      have rest (v : Value) (t : Buffers) : Reads p s { x with buffers := t } (x.memory.Refers a)
          (fun fuel => (p.boundary env fuel).liftFrom a (v :: acc) (i + 1) n)
          ((x.memory.elements a (i + 1) n).map ((v :: acc).reverse ++ ·)) :=
        ih (x := { x with buffers := t }) (i := i + 1) paged found (by omega) (v :: acc)
      have reads := first.bind rest
      rw [elements_map]
      simp only [bind_assoc] at reads
      exact reads

end

/-- A length is a signed word, and none if it is negative. -/
theorem toNat_signed {w : UInt32} : w.toInt32.toInt.toNat = if w.toInt32 < 0 then 0 else w.toNat := by
  split
  · next negative =>
      rw [Int32.lt_iff_toInt_lt] at negative
      exact Int.toNat_of_nonpos (Int.le_of_lt negative)
  · next positive =>
      rw [Work.toInt_toInt32 (Nat.lt_of_not_le (mt Work.toInt32_neg_iff.mpr positive)), Int.toNat_natCast]

/-- Unpacking comes to what the bytes of memory stand for. -/
theorem unpack_reads (env : Environment) (h : p.Stands s) (paged : x.memory.size ≤ UInt32.size) (a : UInt32) :
    Reads p s x (x.memory.Refers a) (fun fuel => (p.boundary env fuel).unpack a) (x.memory.unpacked a) := by
  unfold unpack
  by_cases nil : a = 0
  · subst nil
    exact .of_same (.now fun _ => rfl)
  · have answers {r : Except Failure UInt32} (works : Work.head a x = (r, x)) :=
      word_gives env h.toRooted (h.performs (c := .arraySize a) id) rfl rfl works
    rw [Memory.unpacked, if_neg nil]
    simp only [if_neg (show ¬ a = Boundary.nil from nil)]
    cases found : x.memory.word? a.toNat with
    | none => exact .of_same ((answers (Work.head_outside nil found)).bind_error _)
    | some length =>
        refine .after (answers (Work.head_word nil found)) ?_
        dsimp only
        rw [toNat_signed]
        by_cases negative : length.toInt32 < 0
        · rw [if_pos negative, if_pos negative]
          exact .of_same (.now fun _ => rfl)
        · rw [if_neg negative, if_neg negative]
          have lifted := liftFrom_reads h paged nil found env (i := 0) (Nat.zero_add _) []
          have last (vs : List Value) (t : Buffers) : Reads p s { x with buffers := t } (x.memory.Refers a)
              (fun _ => pure (Returned.ofList vs)) (.ok (Returned.ofList vs)) := .of_same (.now fun _ => rfl)
          have reads := lifted.bind last
          have same : (((x.memory.elements a 0 length.toNat).map fun vs => [].reverse ++ vs) >>=
              fun vs => .ok (Returned.ofList vs)) =
              (x.memory.elements a 0 length.toNat).map Returned.ofList := by
            cases x.memory.elements a 0 length.toNat with
            | error e => rfl
            | ok vs => rfl
          rw [same] at reads
          exact reads

/-! ## With any capabilities -/

/-- Values are lifted one after the other from the elements of an array, each from the word that
memory has at its address when its turn comes. -/
inductive Gathers (env : Environment) (inst : Nat) (a : UInt32) : Nat → Store → List Value → Store → Prop
  | nil (i : Nat) (s : Store) : Gathers env inst a i s [] s
  | cons {i : Nat} {s t t' : Store} {x : Space} {w : UInt32} {v : Value} {vs : List Value}
      (found : space? s inst = some x) (word : x.memory.word? (Memory.elementAt a i) = some w)
      (lifted : Comes (fun fuel => (⟨env, fuel, inst⟩ : Boundary).lift w) s (.ok v) t)
      (rest : Gathers env inst a (i + 1) t vs t') : Gathers env inst a i s (v :: vs) t'

theorem element_ends {fuel : Nat} {w : UInt32} (h : p.Rooted s) (owns : p.Owns s x) (few : i < 2147483648)
    (ended : ((p.boundary env fuel).word "any_array_get" [.i32, .i32] [.i32 a, .i32 (UInt32.ofNat i)]).run s =
      some (.ok w, t)) : t = s ∧ x.memory.word? (Memory.elementAt a i) = some w := by
  have index : (UInt32.ofNat i).toNat = i := by
    rw [UInt32.toNat_ofNat', Nat.mod_eq_of_lt (by omega)]
  have looked := Work.arrayGet_looks a (UInt32.ofNat i) x
  rcases works : Work.arrayGet a (UInt32.ofNat i) x with ⟨r, y⟩
  rw [works] at looked
  obtain rfl : x = y := looked
  have comes := word_gives env h (h.performs (c := .arrayGet a (UInt32.ofNat i)) rfl x) rfl rfl works
  rw [owns.put_eq] at comes
  obtain ⟨answer, left⟩ := ((word_steady _ _ _).comes ended).unique comes
  cases r with
  | error e => cases answer
  | ok w' =>
      cases answer
      refine ⟨left, ?_⟩
      rw [← index]
      exact Work.arrayGet_eq_ok works

/-- No element is passed over. -/
theorem liftFrom_gathers {fuel : Nat} {acc vs : List Value} (planted : Planted p s) (few : i + n ≤ 2147483648)
    (ended : ((p.boundary env fuel).liftFrom a acc i n).run s = some (.ok vs, t)) :
    ∃ new, vs = acc.reverse ++ new ∧ new.length = n ∧ Gathers env p.inst a i s new t := by
  induction n generalizing s acc i with
  | zero =>
      cases ended
      exact ⟨[], (List.append_nil _).symm, rfl, .nil i _⟩
  | succ n ih =>
      obtain ⟨x, owns⟩ := planted.owns
      rcases Guest.run_bind_eq_some ended with ⟨_, _, impossible⟩ | ⟨w, s₁, got, later⟩
      · cases impossible
      · obtain ⟨same, word⟩ := element_ends planted.toRooted owns (by omega) got
        subst same
        rcases Guest.run_bind_eq_some later with ⟨_, _, impossible⟩ | ⟨v, s₂, lifted, rest⟩
        · cases impossible
        · have kept := (keeps_congruence (b := p.boundary env fuel) (Support.planted_lasting env p)).lift w lifted
          obtain ⟨new, rfl, length, gathers⟩ := ih (kept planted) (by omega) rest
          refine ⟨v :: new, by simp, by rw [List.length_cons, length], ?_⟩
          exact .cons (planted.space?_eq.mpr owns) word ((lift_steady w).comes lifted) gathers

section

variable (h : p.Rooted s) (owns : p.Owns s x)

include h owns

theorem size_comes (env : Environment) {r : Except Failure UInt32} (works : Work.head a x = (r, x)) :
    Comes (fun fuel => (p.boundary env fuel).word "any_array_size" [.i32] [.i32 a]) s
      (r.mapError fun e => .ofHelper "any_array_size" e.text) s := by
  have comes := word_gives env h (h.performs (c := .arraySize a) rfl x) rfl rfl works
  rwa [owns.put_eq] at comes

variable (some_a : a ≠ 0)

include some_a

theorem unpack_headless (env : Environment) (outside : x.memory.word? a.toNat = none) :
    Comes (fun fuel => (p.boundary env fuel).unpack a) s (.error (.outside "any_array_size")) s := by
  unfold unpack
  simp only [if_neg (show ¬ a = Boundary.nil from some_a)]
  exact (size_comes h owns env (Work.head_outside some_a outside)).bind_error _

/-- Nothing is lifted if the length is zero or counts as negative. -/
theorem unpack_none (env : Environment) {length : UInt32} (found : x.memory.word? a.toNat = some length)
    (none : length = 0 ∨ 2147483648 ≤ length.toNat) :
    Comes (fun fuel => (p.boundary env fuel).unpack a) s (.ok .empty) s := by
  have count : length.toInt32.toInt.toNat = 0 := by
    rcases none with rfl | large
    · rfl
    · rw [toNat_signed, if_pos (Work.toInt32_neg_iff.mpr large)]
  unfold unpack
  simp only [if_neg (show ¬ a = Boundary.nil from some_a)]
  refine (size_comes h owns env (Work.head_word some_a found)).bind (.now fun _ => ?_)
  rw [count]
  rfl

/-- As many values come as the length says, if it does not count as negative. -/
theorem unpack_whole {fuel : Nat} {length : UInt32} {r : Returned} (planted : Planted p s)
    (found : x.memory.word? a.toNat = some length) (small : length.toNat < 2147483648)
    (ended : ((p.boundary env fuel).unpack a).run s = some (.ok r, t)) :
    r.toList.length = length.toNat ∧ Gathers env p.inst a 0 s r.toList t := by
  have size := size_comes h owns env (Work.head_word some_a found)
  unfold unpack at ended
  simp only [if_neg (show ¬ a = Boundary.nil from some_a)] at ended
  rcases Guest.run_bind_eq_some ended with ⟨_, _, impossible⟩ | ⟨n, s₁, counted, later⟩
  · cases impossible
  · obtain ⟨answer, left⟩ := ((word_steady _ _ _).comes counted).unique size
    cases answer
    subst left
    rcases Guest.run_bind_eq_some later with ⟨_, _, impossible⟩ | ⟨vs, s₂, lifted, done⟩
    · cases impossible
    · cases done
      rw [toNat_signed, if_neg (mt Work.toInt32_neg_iff.mp (Nat.not_le.mpr small))] at lifted
      obtain ⟨new, rfl, count, gathers⟩ := liftFrom_gathers planted (by omega) lifted
      rw [Returned.toList_ofList]
      exact ⟨count, gathers⟩

end

end Boundary

namespace Session

/-! ## Calls -/

variable {fuel : Nat} {s : Session} {e : Entry} {args : List Value} {a : UInt32} {u t : Store} {x : Space}

/-- A call has this answer and no other, and leaves this store. -/
def OnlyAnswers (s : Session) (e : Entry) (args : List Value) (r : Except Error Returned) (t : Store) : Prop :=
  ∀ r' t', s.Answers e args r' t' ↔ r' = r ∧ t' = t

/-- A call whose entry returns a reference has the answer that unpacking it comes to. -/
theorem Runs.onlyAnswers {r : Except Error Returned} (runs : s.Runs fuel e args (.ok [.i32 a]) u)
    (comes : s.Concludes e (.ok [.i32 a]) u r t) : s.OnlyAnswers e args r t := by
  intro r' t'
  rw [runs.answers]
  constructor
  · intro comes'
    exact comes'.unique comes
  · rintro ⟨rfl, rfl⟩
    exact comes

/-- What a call answers whose entry returns a reference. -/
structure Unpacks (s : Session) (e : Entry) (args : List Value) (a : UInt32) (u : Store) (x : Space) : Prop where
  nil : a = 0 → s.OnlyAnswers e args (.ok .empty) u
  headless : a ≠ 0 → x.memory.word? a.toNat = none → s.OnlyAnswers e args (.error (.outside "any_array_size")) u
  empty : a ≠ 0 → x.memory.word? a.toNat = some 0 → s.OnlyAnswers e args (.ok .empty) u
  /-- A length that counts as negative is taken for none, so that nothing is lifted. -/
  overlong : ∀ n, a ≠ 0 → x.memory.word? a.toNat = some n → 2147483648 ≤ n.toNat →
    s.OnlyAnswers e args (.ok .empty) u
  whole : ∀ n r t, a ≠ 0 → x.memory.word? a.toNat = some n → n.toNat < 2147483648 → s.Answers e args (.ok r) t →
    r.toList.length = n.toNat ∧ Boundary.Gathers s.env e.support a 0 u r.toList t

theorem unpacks_of_planted {p : Place} (inst : e.support = p.inst) (h : Planted p u) (owns : p.Owns u x)
    (runs : s.Runs fuel e args (.ok [.i32 a]) u) : s.Unpacks e args a u x where
  nil none := by
    subst none
    exact runs.onlyAnswers (.now fun _ => rfl)
  headless some_a outside := by
    have comes := Boundary.unpack_headless h.toRooted owns some_a s.env outside
    simp only [Support.Place.boundary, ← inst] at comes
    exact runs.onlyAnswers comes
  empty some_a found := by
    have comes := Boundary.unpack_none h.toRooted owns some_a s.env found (.inl rfl)
    simp only [Support.Place.boundary, ← inst] at comes
    exact runs.onlyAnswers comes
  overlong n some_a found large := by
    have comes := Boundary.unpack_none h.toRooted owns some_a s.env found (.inr large)
    simp only [Support.Place.boundary, ← inst] at comes
    exact runs.onlyAnswers comes
  whole n r t some_a found small answered := by
    obtain ⟨k, comes⟩ := runs.answers.mp answered
    have ended : ((⟨s.env, k, e.support⟩ : Boundary).unpack a).run u = some (.ok r, t) := comes k (Nat.le_refl k)
    rw [inst] at ended ⊢
    exact Boundary.unpack_whole h.toRooted owns some_a h found small ended

theorem Beside.refl (inst : Nat) (s : Store) : Beside inst s s := ⟨rfl, rfl, rfl, fun _ _ => rfl, fun _ _ => rfl, rfl⟩

/-- Unpacking decodes the array that a reference leads to: as many values come as its length says,
each decoded from the word at its address, or the error of the first that cannot be. Only a length
that counts as negative is taken for none, and then nothing comes, though the helpers take it for
a length like any other. This is so in every session that shares the support module. With the
default capabilities, the answer is told by the bytes of memory alone, whatever it holds and
whatever its size, and if there are values no live buffer is touched. Only while every handle is
live can there be no answer, since the search for one never ends. -/
theorem results_unpacked {fuel₀ fuel₁ id : Nat} {compiler : Compiler} {config : Config}
    {s₀ s₁ s₂ s : Session} {host : Host} {source : Array UInt8} {e : Entry} {listing : Option String}
    (shared : config.options.standalone = false) (supplied : Supplies compiler config)
    (opened : openWith fuel₀ id compiler config = some (.ok s₀, host)) (earlier : Reached s₀ s₁)
    (loaded : s₁.load fuel₁ source = some (.ok (e, listing), s₂))
    (helpless : s₂.store.export? e.inst "any_array_create" = none) (later : Reached s₂ s) :
    (∀ {fuel args a u}, s.Runs fuel e args (.ok [.i32 a]) u →
      ∃ x, space? u e.support = some x ∧ s.Unpacks e args a u x ∧ (config.overrides = .empty →
        (∃ buffers, s.OnlyAnswers e args (x.memory.unpacked a) { u with host := { u.host with buffers } }) ∨
          x.buffers.Full ∧ ∀ r t, ¬ s.Answers e args r t)) ∧
    (config.overrides = .empty → ∀ {u t x}, Becomes s.env s.store u → Beside e.support u t →
      space? t e.support = some x → x.memory.pages ≤ Wasm.maxPages → ∀ a, (∃ buffers,
        s.Concludes e (.ok [.i32 a]) t (x.memory.unpacked a) { t with host := { t.host with buffers } } ∧
        ∀ r, x.memory.unpacked a = .ok r → x.buffers.Kept buffers) ∨
        x.buffers.Full ∧ ∀ r t', ¬ s.Concludes e (.ok [.i32 a]) t r t') ∧
    ∀ (m : Memory) a n r, a ≠ 0 → m.word? a.toNat = some n → n.toNat < 2147483648 →
      m.unpacked a = .ok r → r.toList.length = n.toNat ∧ ∀ i v, r.toList[i]? = some v → m.element a i = .ok v := by
  have decodes (default : config.overrides = .empty) {u t : Store} {x : Space} (becomes : Becomes s.env s.store u)
      (beside : Beside e.support u t) (found : space? t e.support = some x) (paged : x.memory.pages ≤ Wasm.maxPages)
      (a : UInt32) : (∃ buffers, s.Concludes e (.ok [.i32 a]) t (x.memory.unpacked a)
        { t with host := { t.host with buffers } } ∧ ∀ r, x.memory.unpacked a = .ok r → x.buffers.Kept buffers) ∨
      x.buffers.Full ∧ ∀ r t', ¬ s.Concludes e (.ok [.i32 a]) t r t' := by
    obtain ⟨p, inst, stands⟩ := entry_stands shared supplied opened earlier loaded helpless later default
    rw [inst] at beside found
    obtain ⟨stands, owns⟩ := beside.stands (stands becomes).1.toStands found
    have size : x.memory.size ≤ UInt32.size := Nat.mul_le_mul_right 65536 paged
    have reads := (Boundary.unpack_reads s.env stands size a).comes owns
    simp only [Support.Place.boundary, ← inst] at reads
    rcases reads with ⟨buffers, comes, left⟩ | ⟨⟨full, _⟩, never⟩
    · refine .inl ⟨buffers, comes, fun r decoded => ?_⟩
      rw [decoded] at left
      exact left.of_ok
    · exact .inr ⟨full, fun _ _ => never.not_comes⟩
  refine ⟨fun {fuel args a u} runs => ?_, decodes, fun _ _ _ _ => Memory.unpacked_whole⟩
  obtain ⟨p, inst, planted⟩ := entry_planted shared supplied opened earlier loaded helpless later
  have planted := planted runs.becomes
  obtain ⟨x, owns⟩ := planted.owns
  have found : space? u e.support = some x := inst ▸ planted.space?_eq.mpr owns
  refine ⟨x, found, unpacks_of_planted inst planted owns runs, fun default => ?_⟩
  obtain ⟨q, inst', stands⟩ := entry_stands shared supplied opened earlier loaded helpless later default
  obtain ⟨standing, addressed⟩ := stands runs.becomes
  have few := addressed.few x.memory (standing.space?_eq.mp (inst' ▸ found)).memory
  rcases decodes default runs.becomes (.refl _ u) found few a with ⟨buffers, comes, -⟩ | ⟨full, never⟩
  · exact .inl ⟨buffers, runs.onlyAnswers comes⟩
  · exact .inr ⟨full, fun r t answers => never r t (runs.answers.mp answers)⟩

/-! ## Scripts -/

/-- A script that writes a length of all ones and returns a reference to it. -/
def boasterModule : Wasm.Module where
  types := [⟨[.i32], [.i32]⟩]
  imports := [⟨supportSpace, "memory", .memory ⟨1, none⟩⟩]
  funcs := [0]
  exports := [⟨entryName, .func, 0⟩]
  bodies := [⟨[], [.plain (.i32Const 64), .plain (.i32Const 0xFFFFFFFF), .plain (.store .i32 ⟨2, 0⟩),
    .plain (.i32Const 64), .close]⟩]

set_option maxRecDepth 100000 in
/-- Of an array that claims to have 4294967295 elements, none comes back, and no error either. -/
theorem boaster_shortened : ∃ s₀ host e listing s u x buffers,
    openWith 1000 0 Builtin.compiler {} = some (.ok s₀, host) ∧
      s₀.load 1000 (Wasm.Binary.module boasterModule).toArray = some (.ok (e, listing), s) ∧
      s.store.export? e.inst "any_array_create" = none ∧ s.Runs 1000 e [] (.ok [.i32 64]) u ∧
      space? u e.support = some x ∧ x.memory.word? 64 = some 0xFFFFFFFF ∧
      s.OnlyAnswers e [] (.ok .empty) u ∧
      s.OnlyAnswers e [] (x.memory.unpacked 64) { u with host := { u.host with buffers } } := by
  have checked : opensWith (openWith 1000 0 Builtin.compiler {})
      (loadsWith 1000 (Wasm.Binary.module boasterModule).toArray fun e s =>
        (s.store.export? e.inst "any_array_create").isNone &&
          finishesWith 1000 e [] (fun end_ u => end_ == .ok [.i32 64] &&
            (space? u e.support).any fun x => x.memory.word? 64 == some 0xFFFFFFFF) s) = true := by
    decide +kernel
  obtain ⟨s₀, host, opened, h⟩ := opensWith_spec checked
  obtain ⟨e, listing, s, loaded, h⟩ := loadsWith_spec h
  rw [Bool.and_eq_true, Option.isNone_iff_eq_none] at h
  obtain ⟨helpless, runs⟩ := h
  obtain ⟨end_, u, runs, h⟩ := finishesWith_spec runs
  rw [Bool.and_eq_true] at h
  obtain rfl := eq_of_beq h.1
  obtain ⟨x, found, word⟩ := (Option.any_eq_true _ _).mp h.2
  rw [beq_iff_eq] at word
  obtain ⟨unpacks, -⟩ := results_unpacked rfl (supplies_builtin {}) opened .start loaded helpless .start
  obtain ⟨x', found', unpacks, decodes⟩ := unpacks runs
  cases found.symm.trans found'
  have answered := unpacks.overlong _ (by decide) word (by decide)
  have ends : s.Answers e [] (.ok .empty) u := (answered _ _).mpr ⟨rfl, rfl⟩
  obtain ⟨buffers, decoded⟩ := (decodes rfl).resolve_right fun ⟨_, never⟩ => never _ _ ends
  exact ⟨s₀, host, e, listing, s, u, x, buffers, opened, loaded, helpless, runs, found, word,
    answered, decoded⟩

end Session

end GuestHost
