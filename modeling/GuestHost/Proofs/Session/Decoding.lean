import GuestHost.Proofs.Session.Raising
import GuestHost.Proofs.Session.RoundTrip
import GuestHost.Proofs.Support.Decoding

/-! Lifting is a decoding of the bytes in memory, whichever reference it is given and whatever
memory holds. -/

namespace GuestHost

open Machine
open Support (Place Space Call Work Standing space?)

theorem Machine.Memory.decodeAs_unknown {m : Memory} {kind v : UInt32}
    (unknown : Tag.ofCode? kind.toInt32 = none) :
    m.decodeAs kind v = .error (.unsupportedTag ("#" ++ toString kind.toInt32.toInt)) := by
  have other (t : Tag) : kind.toNat ≠ t.code.toUInt32.toNat := by
    intro same
    rw [UInt32.toNat_inj.mp same, Int32.toInt32_toUInt32, Tag.ofCode?_code] at unknown
    cases unknown
  rw [decodeAs]
  split
  case h_1 same => exact absurd same (other .nil)
  case h_2 same => exact absurd same (other .boolean)
  case h_3 same => exact absurd same (other .integer)
  case h_4 same => exact absurd same (other .number)
  case h_5 same => exact absurd same (other .string)
  case h_6 same => exact absurd same (other .function)
  case h_7 same => exact absurd same (other .userdata)
  case h_8 same => exact absurd same (other .thread)
  case h_9 same => exact absurd same (other .table)
  case h_10 => rfl

/-- Work whose answer is made from a result goes on with what is made of the same result. -/
theorem Comes.bind_map {α β γ : Type} {s t : Store} {first : Nat → Guest α} {rest : Nat → α → Guest β}
    {r : Except Error γ} {f : γ → α} {g : γ → β} (h : Comes first s (r.map f) t)
    (h' : ∀ c, Comes (fun fuel => rest fuel (f c)) t (.ok (g c)) t) :
    Comes (fun fuel => first fuel >>= rest fuel) s (r.map g) t := by
  cases r with
  | error e => exact h.bind_error rest
  | ok c => exact h.bind (h' c)

namespace Boundary

variable {p : Place} {s : Store} {x y : Space} {v : UInt32}

/-! ## Work that reads -/

/-- What reading with a result leaves of the buffers: those that are live and no others, but for
one more if it gives up a string that memory has only a part of. -/
inductive Leaves {α : Type} (x : Space) (refs : UInt32 → Prop) (t : Buffers) : Except Error α → Prop
  | kept {r : Except Error α} (kept : x.buffers.Kept t) : Leaves x refs t r
  | torn {v n : UInt32} {t₁ : Buffers} {k : Handle} {bytes : ByteArray} (among : refs v)
      (torn : x.memory.Torn v n) (kept : x.buffers.Kept t₁) (stored : t₁.insert bytes = some (k, t)) :
      Leaves x refs t (.error (.outside "to_host_string"))

namespace Leaves

variable {α β : Type} {refs refs' : UInt32 → Prop} {r : Except Error α} {t t' : Buffers}

theorem of_ok {a : α} (h : Leaves x refs t (.ok a)) : x.buffers.Kept t := by
  cases h with
  | kept kept => exact kept

theorem of_error {e : Error} (h : Leaves x refs t (.error e : Except Error α)) :
    Leaves x refs t (.error e : Except Error β) := by
  cases h with
  | kept kept => exact .kept kept
  | torn among torn kept stored => exact .torn among torn kept stored

/-- What reading leaves after nothing was left. -/
theorem after (kept : x.buffers.Kept t) (h : Leaves { x with buffers := t } refs t' r) : Leaves x refs t' r := by
  cases h with
  | kept kept' => exact .kept (kept.trans kept')
  | torn among torn kept' stored => exact .torn among torn (kept.trans kept') stored

theorem mono (h : Leaves x refs t r) (weaker : ∀ v, refs v → refs' v) : Leaves x refs' t r := by
  cases h with
  | kept kept => exact .kept kept
  | torn among torn kept stored => exact .torn (weaker _ among) torn kept stored

end Leaves

/-- Every handle is live, and there is a string to be read. -/
def Starving (x : Space) (refs : UInt32 → Prop) : Prop :=
  x.buffers.Full ∧ ∃ v, refs v ∧ x.memory.word? v.toNat = some 4

/-- The work comes to a result and changes nothing but the host's buffers, or it never ends, for
want of a handle. The references are those that it may read. -/
def Reads {α : Type} (p : Place) (s : Store) (x : Space) (refs : UInt32 → Prop) (work : Nat → Guest α)
    (r : Except Error α) : Prop :=
  (∃ t, Comes work (p.put s x) r (p.put s { x with buffers := t }) ∧ Leaves x refs t r) ∨
    Starving x refs ∧ Never work (p.put s x)

namespace Reads

variable {α β : Type} {refs refs' : UInt32 → Prop} {work : Nat → Guest α} {r : Except Error α} {e : Error}

theorem of_same (comes : Comes work (p.put s x) r (p.put s x)) : Reads p s x refs work r :=
  .inl ⟨x.buffers, comes, .kept (.refl _)⟩

theorem throw : Reads p s x refs (fun _ => (MonadExcept.throw e : Guest α)) (.error e) :=
  .of_same (.now fun _ => rfl)

/-- Work goes on where a look has begun. -/
theorem after {first : Nat → Guest α} {rest : Nat → α → Guest β} {a : α} {r : Except Error β}
    (looked : Comes first (p.put s x) (.ok a) (p.put s x))
    (reads : Reads p s x refs (fun fuel => rest fuel a) r) :
    Reads p s x refs (fun fuel => first fuel >>= rest fuel) r := by
  rcases reads with ⟨t, comes, left⟩ | ⟨starving, never⟩
  · exact .inl ⟨t, looked.bind comes, left⟩
  · exact .inr ⟨starving, .after looked never⟩

theorem mono (reads : Reads p s x refs work r) (weaker : ∀ v, refs v → refs' v) : Reads p s x refs' work r := by
  rcases reads with ⟨t, comes, left⟩ | ⟨⟨full, v, among, kind⟩, never⟩
  · exact .inl ⟨t, comes, left.mono weaker⟩
  · exact .inr ⟨⟨full, v, weaker v among, kind⟩, never⟩

theorem comes (owns : p.Owns s x) (reads : Reads p s x refs work r) :
    (∃ buffers, Comes work s r { s with host := { s.host with buffers } } ∧ Leaves x refs buffers r) ∨
      Starving x refs ∧ Never work s := by
  rcases reads with ⟨buffers, comes, left⟩ | ⟨starving, never⟩
  · have same : p.put s { x with buffers := buffers } = { s with host := { s.host with buffers } } :=
      (owns.withBuffers buffers).put_eq
    rw [owns.put_eq, same] at comes
    exact .inl ⟨buffers, comes, left⟩
  · rw [owns.put_eq] at never
    exact .inr ⟨starving, never⟩

end Reads

/-- A helper that returns a word answers what its work comes to, also if it fails. -/
theorem word_gives (env : Environment) {c : Call} {work : Work UInt32} {r : Except Failure UInt32}
    (h : p.Rooted s) (performs : p.Performs env s x c)
    (gives : c.work = work.giving fun w => [.i32 w]) (results : c.type.results = [.i32])
    (works : work x = (r, y)) :
    Comes (fun fuel => (p.boundary env fuel).word c.name c.type.params c.args) (p.put s x)
      (r.mapError fun e => .ofHelper c.name e.text) (p.put s y) := by
  have called : c.work x = (r.map fun w => [.i32 w], y) := by
    rw [gives, Work.giving, works]
  cases r with
  | ok w => exact word_does env h performs called results
  | error e =>
      have failed := helper_does env h performs called
      rw [show c.type = ⟨c.type.params, [.i32]⟩ by rw [← results]] at failed
      exact failed.bind_error _

/-! ## Lifting -/

section

variable (env : Environment) (h : p.Stands s) (some_v : v ≠ 0)

include h some_v

theorem liftText_reads (paged : x.memory.size ≤ UInt32.size) (kind : x.memory.word? v.toNat = some 4) :
    Reads p s x (· = v) (fun fuel => (p.boundary env fuel).liftText v) (x.memory.decodeText v) := by
  by_cases starves : (Call.toHostString v).Starves x
  · exact .inr ⟨⟨.of_mem starves.busy, v, rfl, kind⟩, (word_never env h starves rfl).bind _⟩
  have performs : p.Performs env s x (.toHostString v) := h.performs starves
  have fails {e : Failure} {y : Space} (failed : Work.toHostString v x = (.error e, y)) :
      Comes (fun fuel => (p.boundary env fuel).liftText v) (p.put s x)
        (.error (.ofHelper "to_host_string" e.text)) (p.put s y) :=
    (word_gives env h.toRooted performs rfl rfl failed).bind_error _
  rw [Memory.decodeText]
  cases length : x.memory.word? (v.toNat + 4) with
  | none => exact .of_same (fails (Work.toHostString_headless some_v kind length))
  | some n =>
      dsimp only
      by_cases negative : n.toInt32 < 0
      · rw [if_pos negative]
        exact .of_same (fails (Work.toHostString_negative some_v kind length negative))
      · have small := Nat.lt_of_not_le (mt Work.toInt32_neg_iff.mpr negative)
        have free : x.buffers.fresh ∉ x.buffers.live := fun full =>
          starves (Work.starved_of_length some_v kind length negative full)
        rw [if_neg negative]
        cases found : x.memory.read? (v.toNat + 8) n.toNat with
        | none =>
            have torn : x.memory.Torn v n := ⟨kind, length, negative, Memory.read?_eq_none_iff.mp found⟩
            obtain ⟨bytes, stopped⟩ := Work.toHostString_torn some_v free paged torn
            exact .inl ⟨_, fails stopped, .torn rfl torn (.refl _) (Buffers.insert_of_free free)⟩
        | some bs =>
            have copied := word_gives env h.toRooted performs rfl rfl
              (Work.toHostString_bytes some_v kind free paged length small found)
            have handle : x.buffers.fresh.toUInt32.toInt32 = x.buffers.fresh := by simp
            have taken := take_comes (p := p) (s := s) (x := x) bs.toArray
            rw [← handle] at taken
            refine .inl ⟨x.buffers.passing ⟨bs.toArray⟩, ?_, .kept (.passing free _)⟩
            exact copied.bind (taken.bind (.now fun _ => rfl))

/-- A helper that unboxes a word answers with the payload. -/
theorem unboxed (c : Call) (fed : ¬ c.Starves x) {kind : UInt32} {box : UInt64 → Val}
    (found : x.memory.word? v.toNat = some kind)
    (unboxes : c.work = (Work.unboxWord kind v).giving fun n => [box n]) :
    Comes (fun fuel => (p.boundary env fuel).helper c.name c.type c.args) (p.put s x)
      ((x.memory.payload c.name v).map fun n => [box n]) (p.put s x) := by
  have works := Work.unboxWord_word some_v found
  rw [Memory.payload]
  cases read : x.memory.long? (v.toNat + 8) with
  | none =>
      rw [read] at works
      have failed : c.work x = (.error (.trap .memoryBounds), x) := by
        rw [unboxes, Work.giving, works]
        rfl
      exact helper_does env h.toRooted (h.performs fed) failed
  | some n =>
      rw [read] at works
      have unboxed : c.work x = (.ok [box n], x) := by
        rw [unboxes, Work.giving, works]
        rfl
      exact helper_comes env h c fed unboxed

end

/-- Lifting comes to what the bytes of memory stand for. -/
theorem lift_reads (env : Environment) (h : p.Stands s) (paged : x.memory.size ≤ UInt32.size) (v : UInt32) :
    Reads p s x (· = v) (fun fuel => (p.boundary env fuel).lift v) (x.memory.decode v) := by
  unfold lift
  by_cases nil : v = 0
  · subst nil
    exact .of_same (.now fun _ => rfl)
  · simp only [if_neg (show ¬ v = Boundary.nil from nil)]
    cases found : x.memory.word? v.toNat with
    | none =>
        rw [Memory.decode_headless nil found]
        have failed := word_gives env h.toRooted (h.performs (c := .getTypeNum v) id) rfl rfl
          (Work.head_outside nil found)
        exact .of_same (failed.bind_error _)
    | some kind =>
        rw [Memory.decode_eq nil found]
        have asked := word_gives env h.toRooted (h.performs (c := .getTypeNum v) id) rfl rfl
          (Work.head_word nil found)
        refine .after asked ?_
        cases known : Tag.ofCode? kind.toInt32 with
        | none =>
            rw [Memory.decodeAs_unknown known]
            exact .throw
        | some t =>
            have same : kind = t.code.toUInt32 := by
              rw [Tag.code_of_ofCode? known, UInt32.toUInt32_toInt32]
            subst same
            cases t with
            | nil => exact .of_same (.now fun _ => rfl)
            | boolean | function | userdata | thread | table => exact .throw
            | integer =>
                have read := unboxed env h nil (.toHostInteger v) id found rfl
                exact .of_same (read.bind_map fun n => .now fun _ => rfl)
            | number =>
                have read := unboxed env h nil (.toHostNumber v) id found rfl
                exact .of_same (read.bind_map fun n => .now fun _ => rfl)
            | string => exact liftText_reads env h nil paged found

end Boundary

namespace Session

/-! ## Sessions -/

/-- Whatever its space holds, an instance that stands in a store stands beside it. -/
theorem Beside.stands {p : Place} {s t : Store} {x : Space} (h : p.Stands s) (beside : Beside p.inst s t)
    (found : space? t p.inst = some x) : p.Stands t ∧ p.Owns t x := by
  have image : t.instances[p.inst]? = some p.image := beside.instances ▸ h.found
  have owns : p.Owns t x := (Support.Place.space?_iff image).mp found
  obtain ⟨g, heap, -⟩ := Option.map_eq_some_iff.mp owns.top
  refine ⟨⟨⟨image, ?_, ?_, ?_⟩, ?_, ?_, ?_, ?_⟩, owns⟩
  · rw [beside.funcs]
    exact h.own
  · exact (Array.getElem?_eq_some_iff.mp owns.memory).1
  · exact (Array.getElem?_eq_some_iff.mp heap).1
  · rw [beside.funcs]
    exact h.bufferNew
  · rw [beside.funcs]
    exact h.bufferSet
  · rw [beside.funcs]
    exact h.bufferGet
  · rw [beside.funcs]
    exact h.bufferSize

/-- A script that makes no arrays of its own is called through the instance that the session began
with. -/
theorem entry_support {fuel : Nat} {s₀ s₁ s₂ : Session} {source : Array UInt8} {e : Entry} {listing : Option String}
    (earlier : Reached s₀ s₁) (loaded : s₁.load fuel source = some (.ok (e, listing), s₂))
    (helpless : s₂.store.export? e.inst "any_array_create" = none) : e.support = s₀.support.getD e.inst := by
  rw [(load_entry loaded).2 helpless, earlier.continues.support]

/-- What becomes of a store of a session becomes of the session's first one. -/
theorem Reached.became {s₀ s : Session} {u : Store} (reached : Reached s₀ s) (becomes : Becomes s.env s.store u) :
    Becomes s.env s₀.store u :=
  (becomes_lasting s.env).trans (reached.continues.env ▸ reached.becomes) becomes

section

variable {fuel₀ fuel₁ id : Nat} {compiler : Compiler} {config : Config} {s₀ s₁ s₂ s : Session} {host : Host}
  {source : Array UInt8} {e : Entry} {listing : Option String}
  (shared : config.options.standalone = false) (supplied : Supplies compiler config)
  (opened : openWith fuel₀ id compiler config = some (.ok s₀, host)) (earlier : Reached s₀ s₁)
  (loaded : s₁.load fuel₁ source = some (.ok (e, listing), s₂))
  (helpless : s₂.store.export? e.inst "any_array_create" = none) (later : Reached s₂ s)

include shared supplied opened earlier loaded helpless later

/-- The instance through which a script is called remains for good, whatever capabilities there
are. -/
theorem entry_planted : ∃ p : Place, e.support = p.inst ∧
    ∀ {u : Store}, Becomes s.env s.store u → Support.Planted p u := by
  obtain ⟨p, support, planted⟩ := openWith_plants shared supplied opened
  refine ⟨p, ?_, fun becomes => ?_⟩
  · rw [entry_support earlier loaded helpless, support]
    rfl
  · exact (((earlier.load loaded).trans later).became becomes).keeps (Support.planted_lasting s.env p).toLasting
      (fun _ host planted => planted.withHost host) planted

/-- With the default capabilities it stands, and words have addresses for all of its memory. -/
theorem entry_stands (default : config.overrides = .empty) : ∃ p : Place, e.support = p.inst ∧
    ∀ {u : Store}, Becomes s.env s.store u → Standing p u ∧ Support.Addressed p u := by
  obtain ⟨s₀', _, p, opened', -, support, standing, owns⟩ := openWith_shares fuel₀ id shared supplied default
  cases opened'.symm.trans opened
  have addressed : Support.Addressed p s₀.store := by
    refine ⟨standing.memory, fun m found => ?_⟩
    rw [owns.memory] at found
    cases found
    change 1 ≤ Wasm.maxPages
    decide
  have reached : Reached s₀ s := (earlier.load loaded).trans later
  refine ⟨p, ?_, fun becomes => ⟨?_, ?_⟩⟩
  · rw [entry_support earlier loaded helpless, support]
    rfl
  · exact (reached.became becomes).keeps (Support.lasts_lasting s.env).toLasting
      (fun _ host _ standing => standing.withHost host) p standing
  · exact (reached.became becomes).keeps (Support.addressed_lasting s.env p).toLasting
      (fun _ host addressed => addressed.withHost host) addressed

end

/-- Lifting is a safe decoder. In every store of a session that shares the support module, with
the default capabilities, whatever memory of any size holds and whichever word is taken for a
reference, it comes to what the bytes stand for, and changes nothing but the host's buffers; if it
succeeds, the live ones are left. Only a string cannot be lifted while every handle is live: the
search for one never ends. Lifting traps exactly if a helper lacks bytes or a length is negative,
and none of them ever finds a box of another kind than it expects. -/
theorem lifting_decodes {fuel₀ fuel₁ id : Nat} {compiler : Compiler} {config : Config}
    {s₀ s₁ s₂ s : Session} {host : Host} {source : Array UInt8} {e : Entry} {listing : Option String}
    {u t : Store} {x : Space}
    (shared : config.options.standalone = false) (supplied : Supplies compiler config)
    (default : config.overrides = .empty)
    (opened : openWith fuel₀ id compiler config = some (.ok s₀, host)) (earlier : Reached s₀ s₁)
    (loaded : s₁.load fuel₁ source = some (.ok (e, listing), s₂))
    (helpless : s₂.store.export? e.inst "any_array_create" = none) (later : Reached s₂ s)
    (becomes : Becomes s.env s.store u) (beside : Beside e.support u t) (found : space? t e.support = some x)
    (paged : x.memory.pages ≤ Wasm.maxPages) (v : UInt32) :
    ((∃ buffers, s.Lifts e v t (x.memory.decode v) { t with host := { t.host with buffers } } ∧
        ∀ a, x.memory.decode v = .ok a → x.buffers.Kept buffers) ∨
      x.buffers.Full ∧ x.memory.word? v.toNat = some 4 ∧ ∀ fuel, ((s.boundary fuel e).lift v).run t = none) ∧
    (∀ text, x.memory.decode v = .error (.trap text) ↔
      ∃ helper reason, x.memory.Lacks v helper reason ∧ text = helper ++ ": " ++ reason) ∧
    ∀ helper reason, x.memory.Lacks v helper reason → reason ≠ Trap.unreachable.message := by
  obtain ⟨p, inst, stands⟩ := entry_stands shared supplied opened earlier loaded helpless later default
  rw [inst] at beside found
  obtain ⟨stands, owns⟩ := beside.stands (stands becomes).1.toStands found
  have size : x.memory.size ≤ UInt32.size := Nat.mul_le_mul_right 65536 paged
  refine ⟨?_, fun _ => Memory.decode_trap_iff, fun _ _ => Memory.Lacks.expected⟩
  have reads := (Boundary.lift_reads s.env stands size v).comes owns
  simp only [Support.Place.boundary, ← inst] at reads
  rcases reads with ⟨buffers, comes, left⟩ | ⟨⟨full, _, rfl, kind⟩, never⟩
  · refine .inl ⟨buffers, comes, fun a decoded => ?_⟩
    rw [decoded] at left
    exact left.of_ok
  · exact .inr ⟨full, kind, (Boundary.lift_steady _).never never⟩

/-- A memory of all the addresses that there are, with a text in its last bytes. -/
def lastText : Memory :=
  Memory.put ⟨65536, none, {}⟩ 0xFFFFFFF6 [4, 0, 0, 0, 2, 0, 0, 0, 0xC3, 0xA9]

/-- A text that ends where memory ends, at no address of a box that was ever handed out. -/
theorem last_text_lifts : ∃ (s : Session) (e : Entry) (x : Space) (t : Store),
    space? t e.support = some x ∧ x.memory = lastText ∧
      (∃ t', s.Lifts e 0xFFFFFFF6 t (.ok (.text "é")) t') ∧
      ∃ t', s.Lifts e 0xFFFFFFF8 t (.error (.unsupportedTag "#131072")) t' := by
  have shared : ({} : Config).options.standalone = false := rfl
  have supplied := supplies_builtin {}
  obtain ⟨s₀, host, p, opened, builtin, support, standing, owns⟩ := openWith_shares 0 0 shared supplied rfl
  obtain ⟨e, listing, s, loaded, helpless, -⟩ := load_echo builtin 0
  have inst : e.support = p.inst := by
    rw [(load_entry loaded).2 helpless, support]
    rfl
  have stands : p.Stands s.store := ((load_continues loaded).lasts p standing).toStands
  let x : Space := ⟨lastText, 16, {}⟩
  have beside : Beside e.support s.store (p.put s.store x) := inst ▸ beside_put stands x
  have found : space? (p.put s.store x) e.support = some x := by
    rw [inst]
    exact (stands.put x).space?_eq.mpr (stands.owns_put x)
  have lifts := lifting_decodes shared supplied rfl opened .start loaded helpless .start .start beside found
    (Nat.le_refl _)
  have text : lastText.decode 0xFFFFFFF6 = .ok (.text "é") := by
    decide +kernel
  have unknown : lastText.decode 0xFFFFFFF8 = .error (.unsupportedTag "#131072") := by
    decide +kernel
  have room : ¬ x.buffers.Full := by
    change ¬ 2147483647 ≤ 0
    decide
  obtain ⟨⟨_, first, -⟩, -⟩ := (lifts 0xFFFFFFF6).imp_left fun ends => ends.resolve_right fun ⟨full, _⟩ => room full
  obtain ⟨⟨_, second, -⟩, -⟩ := (lifts 0xFFFFFFF8).imp_left fun ends => ends.resolve_right fun ⟨full, _⟩ => room full
  rw [show x.memory = lastText from rfl, text] at first
  rw [show x.memory = lastText from rfl, unknown] at second
  exact ⟨s, e, x, _, found, rfl, ⟨_, first⟩, ⟨_, second⟩⟩

end Session

end GuestHost
