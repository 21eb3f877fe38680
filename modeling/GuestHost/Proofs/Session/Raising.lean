import GuestHost.Proofs.Session.Steadiness
import GuestHost.Proofs.Session.Verdicts

/-! Raising a value and returning it. A call whose entry raises a value comes to what it would
come to if the entry returned the value in an array, but for the value being an error. -/

namespace GuestHost

open Machine
open Support (Place Space Call Work Planted Standing)

namespace Support

/-- An array with one element, wherever the words of one lie in memory. -/
structure Single (m : Memory) (a w : UInt32) : Prop where
  some_a : a ≠ 0
  length : m.word? a.toNat = some 1
  element : m.word? (a + 4).toNat = some w

namespace Single

variable {x : Space} {a w : UInt32}

theorem arraySize (h : Single x.memory a w) : (Call.arraySize a).work x = (.ok [.i32 1], x) := by
  obtain ⟨n, fetched, length⟩ := Work.fetch_word h.length
  rw [Call.work, Work.giving, Work.head, if_neg h.some_a, Work.bind_eq fetched, length]
  rfl

theorem arrayGet (h : Single x.memory a w) : (Call.arrayGet a 0).work x = (.ok [.i32 w], x) := by
  obtain ⟨n, fetched, length⟩ := Work.fetch_word h.length
  obtain ⟨k, got, element⟩ := Work.fetch_word h.element
  have slot : Work.slot a 0 x = (.ok (a + 4), x) := by
    have first : Work.require (decide ((0 : UInt32) < 1)) x = (.ok (), x) := Work.require_eq rfl
    rw [Work.slot, Work.bind_eq (Work.require_eq (by simpa using h.some_a)), Work.bind_eq fetched, length,
      Work.bind_eq first]
    change (Except.ok (a + 4 + 0), x) = _
    rw [UInt32.add_zero]
  rw [Call.work, Work.giving, Work.arrayGet, Work.bind_eq slot, Work.bind_eq got, element]
  rfl

end Single

end Support

/-! ## What lifting comes to -/

namespace Comes

variable {α β : Type} {s s' : Store}

/-- Work that for large bounds is other work but for what is made of its answer. -/
theorem iff_of_map {work : Nat → Guest α} {work' : Nat → Guest β} {f : Except Error α → Except Error β}
    (steady : Steady work) {n : Nat} {r : Except Error β}
    (same : ∀ fuel ≥ n, (work' fuel).run s = ((work fuel).run s).map fun q => (f q.1, q.2)) :
    Comes work' s r s' ↔ ∃ l, Comes work s l s' ∧ r = f l := by
  constructor
  · rintro ⟨k, comes⟩
    have ended := comes _ (Nat.le_max_right n k)
    rw [same _ (Nat.le_max_left n k)] at ended
    obtain ⟨⟨l, t⟩, lifted, made⟩ := Option.map_eq_some_iff.mp ended
    cases made
    exact ⟨l, steady.comes lifted, rfl⟩
  · rintro ⟨l, ⟨k, comes⟩, rfl⟩
    refine ⟨max n k, fun fuel large => ?_⟩
    rw [same fuel (Nat.le_trans (Nat.le_max_left n k) large),
      comes fuel (Nat.le_trans (Nat.le_max_right n k) large)]
    rfl

end Comes

namespace Boundary

variable {env : Environment} {support : Nat} {p : Place} {s t : Store} {x : Space} {a w : UInt32}

/-- What raising a reference comes to is what lifting it comes to, with the value as an error. -/
theorem raised_comes {r : Except Error Returned} :
    Comes (fun fuel => (⟨env, fuel, support⟩ : Boundary).conclude (.error (.thrown w.toInt32))) s r t ↔
      ∃ l, Comes (fun fuel => (⟨env, fuel, support⟩ : Boundary).lift w) s l t ∧
        r = l.bind fun v => .error (.runtime v) := by
  refine Comes.iff_of_map (n := 0) (lift_steady w) fun fuel _ => ?_
  change (((⟨env, fuel, support⟩ : Boundary).lift w.toInt32.toUInt32 >>= fun v =>
    throw (.runtime v)) : Guest Returned).run s = _
  rw [UInt32.toUInt32_toInt32, Guest.run_bind]
  cases ((⟨env, fuel, support⟩ : Boundary).lift w).run s with
  | none => rfl
  | some q =>
      obtain ⟨_ | _, _⟩ := q
      · rfl
      · rfl

/-- What returning an array with one element comes to is what lifting the element comes to. -/
theorem returned_comes (inst : support = p.inst) (h : p.Rooted s) (owns : p.Owns s x)
    (single : Support.Single x.memory a w) {r : Except Error Returned} :
    Comes (fun fuel => (⟨env, fuel, support⟩ : Boundary).conclude (.ok [.i32 a])) s r t ↔
      ∃ l, Comes (fun fuel => (⟨env, fuel, support⟩ : Boundary).lift w) s l t ∧ r = l.map .single := by
  subst inst
  obtain ⟨n, size⟩ := word_does env h (h.performs (c := .arraySize a) rfl x) single.arraySize rfl
  obtain ⟨k, got⟩ := word_does env h (h.performs (c := .arrayGet a 0) rfl x) single.arrayGet rfl
  rw [owns.put_eq] at size got
  refine Comes.iff_of_map (n := max n k) (lift_steady w) fun fuel large => ?_
  have size : ((p.boundary env fuel).word "any_array_size" [.i32] [.i32 a]).run s = some (.ok 1, s) :=
    size fuel (Nat.le_trans (Nat.le_max_left n k) large)
  have got : ((p.boundary env fuel).word "any_array_get" [.i32, .i32] [.i32 a, .i32 (UInt32.ofNat 0)]).run s =
      some (.ok w, s) :=
    got fuel (Nat.le_trans (Nat.le_max_right n k) large)
  have some_a : ¬ a = nil := single.some_a
  have one : (1 : UInt32).toInt32.toInt.toNat = 0 + 1 := rfl
  change ((p.boundary env fuel).unpack a).run s = _
  rw [unpack, if_neg some_a, Guest.run_bind, size, Option.bind_some]
  dsimp only
  rw [one, liftFrom, Guest.run_bind, Guest.run_bind, got, Option.bind_some]
  dsimp only
  rw [Guest.run_bind]
  cases ((p.boundary env fuel).lift w).run s with
  | none => rfl
  | some q =>
      obtain ⟨_ | _, _⟩ := q
      · rfl
      · rfl

end Boundary

/-! ## Lifting with the default functions of buffers -/

/-- What keeps a reference from being lifted: a helper traps, or it is of a kind that hosts have
no values of. -/
def Error.Unliftable (e : Error) : Prop := (∃ text, e = .trap text) ∨ ∃ name, e = .unsupportedTag name

namespace Boundary

variable {p : Place} {s : Store} {x : Space}

theorem helper_settles (env : Environment) (h : p.Stands s) (c : Call) :
    Settles (fun fuel => (p.boundary env fuel).helper c.name c.type c.args) (p.put s x) Error.Unliftable
      x.buffers.Full fun vals t => ∃ y, c.work x = (.ok vals, y) ∧ t = p.put s y := by
  by_cases starves : c.Starves x
  · exact .never (.of_mem starves.busy) (helper_never env h starves)
  · rcases works : c.work x with ⟨e | vals, y⟩
    · exact .failed (helper_does env h.toRooted (h.performs starves) works) (.inl ⟨_, rfl⟩)
    · exact .done (helper_comes env h c starves works) ⟨y, rfl, rfl⟩

theorem badResult_settles {α : Type} {stuck : Prop} {Q : α → Store → Prop} :
    Settles (fun _ => badResult) s Error.Unliftable stuck Q :=
  .throw (.inl ⟨_, rfl⟩)

theorem word_settles (env : Environment) {c : Call} {work : Work UInt32} (h : p.Stands s)
    (gives : c.work = work.giving fun w => [.i32 w]) (results : c.type.results = [.i32]) :
    Settles (fun fuel => (p.boundary env fuel).word c.name c.type.params c.args) (p.put s x) Error.Unliftable
      x.buffers.Full fun w t => ∃ y, work x = (.ok w, y) ∧ t = p.put s y := by
  have helped := helper_settles (x := x) env h c
  rw [show c.type = ⟨c.type.params, [.i32]⟩ by rw [← results]] at helped
  refine helped.bind ?_
  rintro vals t ⟨y, works, rfl⟩
  rw [gives, Work.giving] at works
  rcases given : work x with ⟨e | w, z⟩
  · rw [given] at works
    cases works
  · rw [given] at works
    cases works
    exact .pure ⟨z, rfl, rfl⟩

/-- A string that was copied to the host is there to be taken. -/
theorem liftText_settles (env : Environment) (h : p.Stands s) (w : UInt32) :
    Settles (fun fuel => (p.boundary env fuel).liftText w) (p.put s x) Error.Unliftable x.buffers.Full
      fun _ _ => True := by
  refine (word_settles env (c := .toHostString w) h rfl rfl).bind ?_
  rintro buffer t ⟨y, works, rfl⟩
  have copied := Work.toHostString_copied w x
  rw [works] at copied
  cases copied with
  | done free bytes =>
      have taken := take_comes (p := p) (s := s) (x := x) bytes.toArray
      have handle : x.buffers.fresh.toUInt32.toInt32 = x.buffers.fresh := by simp
      rw [handle]
      exact .done (taken.bind (.now fun _ => rfl)) trivial

theorem lift_settles (env : Environment) (h : p.Stands s) (w : UInt32) :
    Settles (fun fuel => (p.boundary env fuel).lift w) (p.put s x) Error.Unliftable x.buffers.Full
      fun _ _ => True := by
  unfold lift
  split
  · exact .pure trivial
  · refine (word_settles env (c := .getTypeNum w) h rfl rfl).bind ?_
    rintro raw t ⟨y, works, rfl⟩
    have looked := Work.head_looks w x
    rw [works] at looked
    obtain rfl : x = y := looked
    split
    · exact .throw (.inr ⟨_, rfl⟩)
    · exact .pure trivial
    · refine (helper_settles env h (.toHostInteger w)).bind fun vals t _ => ?_
      split
      · exact .pure trivial
      · exact badResult_settles
    · refine (helper_settles env h (.toHostNumber w)).bind fun vals t _ => ?_
      split
      · exact .pure trivial
      · exact badResult_settles
    · exact liftText_settles env h w
    · exact .throw (.inr ⟨_, rfl⟩)

end Boundary

namespace Session

/-! ## Calls -/

/-- With enough steps, the end of the entry's own run comes to this answer and leaves this store. -/
abbrev Concludes (s : Session) (e : Entry) (end_ : Except Failure (List Val)) (u : Store)
    (r : Except Error Returned) (t : Store) : Prop :=
  Comes (fun fuel => (s.boundary fuel e).conclude end_) u r t

/-- With enough steps, a reference is lifted to this and leaves this store. -/
abbrev Lifts (s : Session) (e : Entry) (w : UInt32) (u : Store) (l : Except Error Value) (t : Store) : Prop :=
  Comes (fun fuel => (s.boundary fuel e).lift w) u l t

variable {fuel : Nat} {s : Session} {e : Entry} {args : List Value} {m : State} {u t : Store}
  {end_ : Except Failure (List Val)}

/-- What raising a reference and returning it in an array come to, in the same store. -/
structure Agrees (s : Session) (e : Entry) (u : Store) (a w : UInt32) : Prop where
  raised : ∀ {r t}, s.Concludes e (.error (.thrown w.toInt32)) u r t ↔
    ∃ l, s.Lifts e w u l t ∧ r = l.bind fun v => .error (.runtime v)
  returned : ∀ {r t}, s.Concludes e (.ok [.i32 a]) u r t ↔ ∃ l, s.Lifts e w u l t ∧ r = l.map .single
  value : ∀ {v t}, s.Concludes e (.error (.thrown w.toInt32)) u (.error (.runtime v)) t ↔
    s.Concludes e (.ok [.i32 a]) u (.ok (.single v)) t
  error : ∀ {c t}, s.Lifts e w u (.error c) t →
    s.Concludes e (.error (.thrown w.toInt32)) u (.error c) t ∧ s.Concludes e (.ok [.i32 a]) u (.error c) t

/-- Where an array with one element lies, raising the element is returning the array. -/
theorem agrees_of_planted {p : Place} {x : Space} {a w : UInt32} (inst : e.support = p.inst)
    (h : Planted p u) (owns : p.Owns u x) (single : Support.Single x.memory a w) : Agrees s e u a w where
  raised := Boundary.raised_comes
  returned := Boundary.returned_comes inst h.toRooted owns single
  value {v t} := by
    rw [Concludes, Concludes, Boundary.raised_comes, Boundary.returned_comes inst h.toRooted owns single]
    constructor
    · rintro ⟨l, ⟨n, lifts⟩, same⟩
      cases l with
      | ok v' =>
          cases same
          exact ⟨_, ⟨n, lifts⟩, rfl⟩
      | error c =>
          -- Lifting never fails with a raised value.
          cases same
          cases Boundary.marshals_congruence.lift _ (lifts n le_rfl)
    · rintro ⟨l, lifts, same⟩
      cases l with
      | ok v' =>
          cases same
          exact ⟨_, lifts, rfl⟩
      | error c => cases same
  error lifts := ⟨Boundary.raised_comes.mpr ⟨_, lifts, rfl⟩,
    (Boundary.returned_comes inst h.toRooted owns single).mpr ⟨_, lifts, rfl⟩⟩

/-- With enough steps, a call is answered so and leaves the store so. -/
def Answers (s : Session) (e : Entry) (args : List Value) (r : Except Error Returned) (t : Store) : Prop :=
  ∃ fuel s', s.call fuel e args = some (r, s') ∧ s'.store = t

theorem Runs.more (runs : s.Runs fuel e args end_ u) {k : Nat} (more : fuel ≤ k) : s.Runs k e args end_ u := by
  obtain ⟨packed, t, packs, ran⟩ := runs.ends
  obtain ⟨j, rfl⟩ := Nat.exists_eq_add_of_le more
  exact ⟨runs.own, runs.typed, packed, t, Boundary.pack_steady args more packs, run_mono ran⟩

/-- A call is answered with what the end of its entry's own run comes to. -/
theorem Runs.answers {r : Except Error Returned} (runs : s.Runs fuel e args end_ u) :
    s.Answers e args r t ↔ s.Concludes e end_ u r t := by
  constructor
  · rintro ⟨k, s', called, rfl⟩
    have called := call_more called (Nat.le_max_right fuel k)
    rw [(runs.more (Nat.le_max_left fuel k)).call] at called
    obtain ⟨⟨r', store⟩, ended, same⟩ := Option.map_eq_some_iff.mp called
    cases same
    exact (Boundary.conclude_steady end_).comes ended
  · rintro ⟨k, comes⟩
    refine ⟨max fuel k, { s with store := t }, ?_, rfl⟩
    rw [(runs.more (Nat.le_max_left fuel k)).call, comes _ (Nat.le_max_right fuel k)]
    rfl

theorem Runs.becomes (runs : s.Runs fuel e args end_ u) : Becomes s.env s.store u := by
  obtain ⟨packed, t, packs, ran⟩ := runs.ends
  have packing := Boundary.pack_keeps (b := s.boundary fuel e) (becomes_lasting s.env) args packs
  exact (becomes_lasting s.env).trans packing ((becomes_lasting s.env).toLasting.invoke ran)

/-- The entry's own run ends where it gets to its last state. -/
theorem Passes.runs (passes : s.Passes fuel e args m) (finished : step s.env m = .finished end_ u)
    (own : e.session = s.id) (typed : s.store.hasType e.func Boundary.entryType = true) :
    ∃ n, ∀ k ≥ n, s.Runs k e args end_ u := by
  obtain ⟨packed, t, packs, reached⟩ := passes
  obtain ⟨n, ends⟩ := run_of_last reached finished
  refine ⟨max fuel n, fun k large => ⟨own, typed, packed, t, ?_, ?_⟩⟩
  · exact Boundary.pack_steady args (Nat.le_trans (Nat.le_max_left fuel n) large) packs
  · exact ends k (Nat.le_trans (Nat.le_max_right fuel n) large)

/-- What becomes of the values that an entry raises. -/
structure RaisingSpec (s : Session) (e : Entry) : Prop where
  /-- However many calls deep a value is raised, it ends the entry's own run, unless a module is
  being instantiated. -/
  ends : ∀ {fuel args m w}, s.Passes fuel e args m → m.Enters s.env ("error", "throw") [.i32 w] →
    loading m.waiting = 0 → s.store.hasType e.func Boundary.entryType = true →
      ∃ n, ∀ k ≥ n, s.Runs k e args (.error (.thrown w.toInt32)) m.store
  /-- The call reports the value if the entry could as well have returned it in an array of one
  element, and what it fails with otherwise returning it would fail with. -/
  call : ∀ {fuel args w u}, s.Runs fuel e args (.error (.thrown w.toInt32)) u →
    ∃ x, Support.space? u e.support = some x ∧ ∀ {a}, Support.Single x.memory a w →
      (∀ {v t}, s.Answers e args (.error (.runtime v)) t ↔ s.Concludes e (.ok [.i32 a]) u (.ok (.single v)) t) ∧
      ∀ {c t}, s.Lifts e w u (.error c) t →
        s.Answers e args (.error c) t ∧ s.Concludes e (.ok [.i32 a]) u (.error c) t
  /-- A call is answered with what its entry's own run comes to, a value or not. -/
  answers : ∀ {fuel args end_ u r t}, s.Runs fuel e args end_ u →
    (s.Answers e args r t ↔ s.Concludes e end_ u r t)
  /-- Whatever memory and buffers hold, and wherever the array lies. -/
  agrees : ∀ {u}, Becomes s.env s.store u → ∃ x, Support.space? u e.support = some x ∧
    ∀ {a w}, Support.Single x.memory a w → Agrees s e u a w

/-- Raising a value and returning it agree for scripts that share the support module, whatever
capabilities a session has besides the default one for raising. Unless it replaces others, lifting
a reference comes to a value, or to a trap or an unsupported tag, or, where every handle is live, it
never ends. -/
theorem raising_agrees {fuel₀ fuel₁ id : Nat} {compiler : Compiler} {config : Config}
    {s₀ s₁ s₂ s : Session} {host : Host} {source : Array UInt8} {e : Entry} {listing : Option String}
    (shared : config.options.standalone = false) (supplied : Supplies compiler config)
    (default : config.capability? "error" "throw" = some Capability.throw)
    (opened : openWith fuel₀ id compiler config = some (.ok s₀, host)) (earlier : Reached s₀ s₁)
    (loaded : s₁.load fuel₁ source = some (.ok (e, listing), s₂))
    (helpless : s₂.store.export? e.inst "any_array_create" = none) (later : Reached s₂ s) :
    s.RaisingSpec e ∧
    (config.overrides = .empty → ∀ {u}, Becomes s.env s.store u → ∀ w,
      (∃ l t, s.Lifts e w u l t ∧ ∀ c, l = .error c → c.Unliftable) ∨
      u.host.buffers.Full ∧ ∀ fuel, ((s.boundary fuel e).lift w).run u = none) ∧
    ∀ v, (Error.runtime v).message = v.display := by
  obtain ⟨session, through⟩ := load_entry loaded
  have before := earlier.continues
  have after := (load_continues loaded).trans later.continues
  have own : e.session = s.id := session.trans after.id.symm
  have reached : Reached s₀ s := (earlier.load loaded).trans later
  have became {u : Store} (becomes : Becomes s.env s.store u) : Becomes s.env s₀.store u :=
    (becomes_lasting s.env).trans (reached.continues.env ▸ reached.becomes) becomes
  have agrees {u : Store} (becomes : Becomes s.env s.store u) : ∃ x, Support.space? u e.support = some x ∧
      ∀ {a w}, Support.Single x.memory a w → Agrees s e u a w := by
    obtain ⟨p, support, planted⟩ := openWith_plants shared supplied opened
    have inst : e.support = p.inst := by
      rw [through helpless, before.support, support]
      rfl
    have planted_u : Planted p u := (became becomes).keeps (Support.planted_lasting s.env p).toLasting
      (fun _ host planted => planted.withHost host) planted
    obtain ⟨x, owns⟩ := planted_u.owns
    exact ⟨x, inst ▸ planted_u.space?_eq.mpr owns, agrees_of_planted inst planted_u owns⟩
  refine ⟨⟨fun passes enters none typed => ?_, fun runs => ?_, Runs.answers, agrees⟩,
    fun plain u becomes w => ?_, fun v => rfl⟩
  · have raises := entered_raises default opened reached passes.becomes enters
    exact passes.runs ((step_raised s.env raises).1 none) own typed
  · obtain ⟨x, found, agrees⟩ := agrees runs.becomes
    refine ⟨x, found, fun single => ⟨runs.answers.trans (agrees single).value, fun lifts => ?_⟩⟩
    obtain ⟨raised, returned⟩ := (agrees single).error lifts
    exact ⟨runs.answers.mpr raised, returned⟩
  · obtain ⟨s₀', _, p, opened', -, support, standing, -⟩ := openWith_shares fuel₀ id shared supplied plain
    cases opened'.symm.trans opened
    have inst : e.support = p.inst := by
      rw [through helpless, before.support, support]
      rfl
    have standing_u : Standing p u := (became becomes).keeps (Support.lasts_lasting s.env).toLasting
      (fun _ host _ standing => standing.withHost host) p standing
    obtain ⟨x, owns⟩ := standing_u.owns
    have lifts := Boundary.lift_settles (x := x) s.env standing_u.toStands w
    simp only [Support.Place.boundary, ← inst] at lifts
    rw [owns.put_eq, ← owns.buffers] at lifts
    cases lifts with
    | done comes => exact .inl ⟨_, _, comes, fun c same => by cases same⟩
    | failed comes kind =>
        refine .inl ⟨_, _, comes, fun c same => ?_⟩
        cases same
        exact kind
    | never full never => exact .inr ⟨full, (Boundary.lift_steady w).never never⟩

/-! ## Scripts -/

/-- A script that boxes 7, puts it into an array of its own, and raises it. -/
def complainerModule : Wasm.Module where
  types := [⟨[.i32], [.i32]⟩, ⟨[.i32, .i32, .i32], []⟩, ⟨[.i64], [.i32]⟩, ⟨[.i32], []⟩]
  imports :=
    [⟨supportSpace, "any_array_create", .func 0⟩, ⟨supportSpace, "any_array_set", .func 1⟩,
     ⟨supportSpace, "box_integer", .func 2⟩, ⟨"error", "throw", .func 3⟩]
  funcs := [0]
  exports := [⟨entryName, .func, 4⟩]
  bodies :=
    [⟨[(2, .i32)], [.plain (.i32Const 1), .call 0, .plain (.localSet 1),
      .plain (.i64Const 7), .call 2, .plain (.localSet 2),
      .plain (.localGet 1), .plain (.i32Const 0), .plain (.localGet 2), .call 1,
      .plain (.localGet 2), .call 3, .plain (.i32Const 0), .close]⟩]

set_option maxRecDepth 100000 in
/-- What the script raises, it could as well return. -/
theorem complainer_agrees : ∃ s₀ host e listing s u x t,
    openWith 1000 0 Builtin.compiler {} = some (.ok s₀, host) ∧
      s₀.load 1000 (Wasm.Binary.module complainerModule).toArray = some (.ok (e, listing), s) ∧
      s.store.export? e.inst "any_array_create" = none ∧
      s.Runs 1000 e [] (.error (.thrown (24 : UInt32).toInt32)) u ∧
      Support.space? u e.support = some x ∧ Support.Single x.memory 16 24 ∧
      s.Answers e [] (.error (.runtime (.integer 7))) t ∧
      s.Concludes e (.ok [.i32 16]) u (.ok (.single (.integer 7))) t := by
  have checked : opensWith (openWith 1000 0 Builtin.compiler {})
      (loadsWith 1000 (Wasm.Binary.module complainerModule).toArray fun e s =>
        (s.store.export? e.inst "any_array_create").isNone &&
          callsWith 1000 e [] (fun r _ => r == .error (.runtime (.integer 7))) s &&
          finishesWith 1000 e [] (fun end_ u => end_ == .error (.thrown (24 : UInt32).toInt32) &&
            (Support.space? u e.support).any fun x =>
              x.memory.word? 16 == some 1 && x.memory.word? 20 == some 24) s) = true := by
    decide +kernel
  obtain ⟨s₀, host, opened, h⟩ := opensWith_spec checked
  obtain ⟨e, listing, s, loaded, h⟩ := loadsWith_spec h
  rw [Bool.and_eq_true, Bool.and_eq_true, Option.isNone_iff_eq_none] at h
  obtain ⟨⟨helpless, calls⟩, runs⟩ := h
  obtain ⟨r, s', called, raised⟩ := callsWith_spec calls
  obtain rfl := eq_of_beq raised
  obtain ⟨end_, u, runs, h⟩ := finishesWith_spec runs
  rw [Bool.and_eq_true] at h
  obtain rfl := eq_of_beq h.1
  obtain ⟨x, found, words⟩ := (Option.any_eq_true _ _).mp h.2
  rw [Bool.and_eq_true, beq_iff_eq, beq_iff_eq] at words
  have single : Support.Single x.memory 16 24 := ⟨by decide, words.1, words.2⟩
  have answers : s.Answers e [] (.error (.runtime (.integer 7))) s'.store := ⟨1000, s', called, rfl⟩
  obtain ⟨raising, _⟩ := raising_agrees rfl (supplies_builtin {}) rfl opened .start loaded helpless .start
  obtain ⟨x', found', agrees⟩ := raising.call runs
  cases found.symm.trans found'
  exact ⟨s₀, host, e, listing, s, u, x, s'.store, opened, loaded, helpless, runs, found, single, answers,
    (agrees single).1.mp answers⟩

end Session

end GuestHost
