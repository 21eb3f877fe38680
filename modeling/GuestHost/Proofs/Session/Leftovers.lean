import GuestHost.Proofs.Session.Elements
import GuestHost.Proofs.Session.Tidying

/-! What a call leaves of the buffers, if the entry's own run neither stores any nor consumes
any: those that were live before, and at most one more. -/

namespace GuestHost

open Machine
open Support (Place Space Standing Addressed space?)

/-- The end of a run hands a reference to the host: one that it raises, or an element of the array
that it returns. -/
def Machine.Memory.Yields (m : Memory) : Except Failure (List Val) → UInt32 → Prop
  | .error (.thrown w), v => v = w.toUInt32
  | .ok [.i32 a], v => m.Refers a v
  | _, _ => False

/-! ## The end of a call -/

namespace Boundary

variable {env : Environment} {p : Place} {fuel : Nat} {s s' : Store} {x : Space}

/-- Where the end of a run leads to nothing that is lifted, the store stays as it is. -/
theorem conclude_idle {b : Boundary} {end_ : Except Failure (List Val)} {r : Except Error Returned}
    (returned : ∀ a, end_ ≠ .ok [.i32 a]) (raised : ∀ w, end_ ≠ .error (.thrown w))
    (ended : (b.conclude end_).run s = some (r, s')) : s' = s := by
  unfold conclude at ended
  split at ended
  · next a => exact absurd rfl (returned a)
  · cases ended
    rfl
  · next e =>
      cases e with
      | thrown w => exact absurd rfl (raised w)
      | host | trap | message =>
          cases ended
          rfl

/-- What the end of a run leaves of the buffers when it has come to an answer. -/
theorem conclude_leaves {end_ : Except Failure (List Val)} {r : Except Error Returned} (h : p.Stands s)
    (owns : p.Owns s x) (paged : x.memory.size ≤ UInt32.size)
    (ended : ((p.boundary env fuel).conclude end_).run s = some (r, s')) :
    Leaves x (x.memory.Yields end_) s'.host.buffers r := by
  have comes := (conclude_steady end_).comes ended
  by_cases returned : ∃ a, end_ = .ok [.i32 a]
  · obtain ⟨a, rfl⟩ := returned
    rcases (unpack_reads env h paged a).comes owns with ⟨buffers, unpacks, left⟩ | ⟨-, never⟩
    · obtain ⟨rfl, rfl⟩ := comes.unique unpacks
      exact left
    · exact absurd comes never.not_comes
  by_cases raised : ∃ w, end_ = .error (.thrown w)
  · obtain ⟨w, rfl⟩ := raised
    rw [← Int32.toInt32_toUInt32 w] at comes
    obtain ⟨l, lifts, rfl⟩ := raised_comes.mp comes
    rcases (lift_reads env h paged w.toUInt32).comes owns with ⟨buffers, lifted, left⟩ | ⟨-, never⟩
    · obtain ⟨same, rfl⟩ := lifts.unique lifted
      rw [← same] at left
      cases l with
      | ok v => exact .kept left.of_ok
      | error e => exact left.of_error
    · exact absurd lifts never.not_comes
  · rw [conclude_idle (not_exists.mp returned) (not_exists.mp raised) ended]
    exact .kept (congrArg Buffers.live owns.buffers)

end Boundary

namespace Session

/-! ## Calls -/

/-- The entry's own run writes to a buffer when it is called with arguments. -/
def Writes (fuel : Nat) (s : Session) (e : Entry) (args : List Value) (k : Handle) : Prop :=
  ∃ m, s.Passes fuel e args m ∧ m.Writes s.env k

/-- What a call leaves of the buffers: nothing but what the entry's own run made of those that were
live, unless it gives up a string that it was to lift. -/
inductive Leaves (fuel : Nat) (s : Session) (e : Entry) (args : List Value) (r : Except Error Returned)
    (s' : Session) : Prop
  /-- The entry's own run does not take place. -/
  | idle (unrun : ∀ end_ u, ¬ s.Runs fuel e args end_ u)
      (live : s'.host.buffers.live = s.host.buffers.live) : Leaves fuel s e args r s'
  | ran {end_ : Except Failure (List Val)} {u : Store} (runs : s.Runs fuel e args end_ u)
      (preserved : s.host.buffers.Preserved (s.Writes fuel e args) u.host.buffers)
      (live : s'.host.buffers.live = u.host.buffers.live) : Leaves fuel s e args r s'
  /-- Memory has only a part of a string that the run raised, or returned in an array. The call
  fails for it, and leaves one buffer besides those that were live. -/
  | torn {end_ : Except Failure (List Val)} {u : Store} {x : Space} {v n : UInt32} {k : Handle} {bytes : ByteArray}
      (runs : s.Runs fuel e args end_ u)
      (preserved : s.host.buffers.Preserved (s.Writes fuel e args) u.host.buffers)
      (found : space? u e.support = some x) (yields : x.memory.Yields end_ v) (torn : x.memory.Torn v n)
      (failed : r = .error (.outside "to_host_string")) (other : k ∉ u.host.buffers.live)
      (live : s'.host.buffers.live = u.host.buffers.live.insert k bytes) : Leaves fuel s e args r s'

/-- The entry's own run preserves the buffers that it does not write to, and the length of those
that it does. -/
theorem Runs.preserves {fuel : Nat} {s : Session} {e : Entry} {args : List Value} {u : Store}
    {end_ : Except Failure (List Val)} (runs : s.Runs fuel e args end_ u)
    (backed : Backed (s.env.links.getD .empty) s.store)
    (packing : ∀ {packed t}, ((s.boundary fuel e).pack args).run s.store = some (.ok packed, t) →
      s.host.buffers.Kept t.host.buffers)
    (quiet : ∀ m, s.Passes fuel e args m →
      ∀ name vals, m.Enters s.env name vals → name ∉ Capability.churning) :
    s.host.buffers.Preserved (s.Writes fuel e args) u.host.buffers := by
  obtain ⟨packed, t, packs, ran⟩ := runs.ends
  have backed := Boundary.pack_keeps (b := s.boundary fuel e) (backed_lasting s.env _) args packs backed
  have passes {m : State} (reached : Reaches s.env ⟨t, .enter e.func [.i32 packed], []⟩ m) :
      s.Passes fuel e args m := ⟨packed, t, packs, reached⟩
  exact .trans (.of_live_eq (packing packs)) <| run_preserves backed (fun m reached => quiet m (passes reached))
    (fun m reached k writes => ⟨m, passes reached, writes⟩) ran

/-- When a call ends, the buffers that were live before it are live, as long as the entry's own run
neither stores buffers nor consumes any. They hold what this run left in them, and those that it
does not write to hold the bytes that they held. No others are live, but for one at most: a call
may fail on a string that memory holds only in part. It does not matter what the guest leaves in
memory, or what it returns or raises, nor whether the call succeeds. -/
theorem call_preserves_buffers {fuel₀ fuel₁ fuel id : Nat} {compiler : Compiler} {config : Config}
    {s₀ s₁ s₂ s s' : Session} {host : Host} {source : Array UInt8} {e : Entry} {listing : Option String}
    {args : List Value} {r : Except Error Returned} (shared : config.options.standalone = false)
    (supplied : Supplies compiler config) (default : config.overrides = .empty)
    (opened : openWith fuel₀ id compiler config = some (.ok s₀, host)) (earlier : Reached s₀ s₁)
    (loaded : s₁.load fuel₁ source = some (.ok (e, listing), s₂))
    (helpless : s₂.store.export? e.inst "any_array_create" = none) (later : Reached s₂ s)
    (quiet : ∀ m, s.Passes fuel e args m →
      ∀ name vals, m.Enters s.env name vals → name ∉ Capability.churning)
    (called : s.call fuel e args = some (r, s')) : s.Leaves fuel e args r s' := by
  obtain ⟨p, inst, stands⟩ := entry_stands shared supplied opened earlier loaded helpless later default
  have own : e.session = s.id := (load_entry loaded).1.trans ((load_continues loaded).trans later.continues).id.symm
  have reached : Reached s₀ s := (earlier.load loaded).trans later
  have backed : Backed (s.env.links.getD .empty) s.store := by
    rw [reached.continues.env]
    exact reached.keeps (backed_lasting _ _) (fun _ _ backed => backed) (openWith_backed default opened)
  have packing {o : Except Error UInt32} {t : Store}
      (packs : ((s.boundary fuel e).pack args).run s.store = some (o, t)) : s.host.buffers.Kept t.host.buffers := by
    rw [boundary, inst] at packs
    exact (Boundary.pack_tidy args (stands .start).1 packs).2
  rw [call_own own] at called
  obtain ⟨⟨r', store⟩, ended, same⟩ := Option.map_eq_some_iff.mp called
  cases same
  cases Boundary.call_ends ended with
  | untyped other =>
      refine .idle (fun end_ u runs => ?_) rfl
      cases runs.typed.symm.trans other
  | unpacked packs =>
      refine .idle (fun end_ u runs => ?_) (packing packs)
      obtain ⟨_, _, packs', _⟩ := runs.ends
      cases packs.symm.trans packs'
  | @ran packed t u _ end_ _ packs ran concludes typed =>
      have runs : s.Runs fuel e args end_ u := ⟨own, typed, packed, t, packs, ran⟩
      have preserved := runs.preserves backed packing quiet
      obtain ⟨standing, addressed⟩ := stands runs.becomes
      obtain ⟨x, owns⟩ := standing.owns
      have paged : x.memory.size ≤ UInt32.size := Nat.mul_le_mul_right 65536 (addressed.few x.memory owns.memory)
      rw [inst] at concludes
      have begun : x.buffers.live = u.host.buffers.live := congrArg Buffers.live owns.buffers.symm
      cases Boundary.conclude_leaves standing.toStands owns paged concludes with
      | kept kept => exact .ran runs preserved (Eq.trans kept begun)
      | torn yields torn kept stored =>
          obtain ⟨free, -, same⟩ := Buffers.insert_eq_some.mp stored
          have live := Eq.trans kept begun
          rw [live] at free same
          exact .torn runs preserved (inst ▸ standing.space?_eq.mpr owns) yields torn rfl free
            (congrArg Buffers.live same)

/-! ## Scripts -/

/-- A script that stores a buffer of one byte and leaves it. -/
def makerModule : Wasm.Module where
  types := [⟨[.i32], [.i32]⟩]
  imports := [⟨"buffer", "new", .func 0⟩]
  funcs := [0]
  exports := [⟨entryName, .func, 1⟩]
  bodies := [⟨[], [.plain (.i32Const 1), .call 0, .plain .drop, .plain (.i32Const 0), .close]⟩]

/-- A script that writes to the first buffer, and returns an array with one string, of which
memory holds only the first bytes. -/
def forgerModule : Wasm.Module where
  types := [⟨[.i32], [.i32]⟩, ⟨[.i32, .i32, .i32], []⟩]
  imports := [⟨supportSpace, "memory", .memory ⟨1, none⟩⟩, ⟨"buffer", "set", .func 1⟩]
  funcs := [0]
  exports := [⟨entryName, .func, 1⟩]
  bodies :=
    [⟨[], [.plain (.i32Const 1), .plain (.i32Const 0), .plain (.i32Const 7), .call 0,
      .plain (.i32Const 65512), .plain (.i32Const 1), .plain (.store .i32 ⟨2, 0⟩),
      .plain (.i32Const 65516), .plain (.i32Const 65520), .plain (.store .i32 ⟨2, 0⟩),
      .plain (.i32Const 65520), .plain (.i32Const 4), .plain (.store .i32 ⟨2, 0⟩),
      .plain (.i32Const 65524), .plain (.i32Const 100), .plain (.store .i32 ⟨2, 0⟩),
      .plain (.i32Const 65512), .close]⟩]

/-- Whether a run ends within a number of steps and enters none of the functions with these
names. -/
def avoids (env : Environment) (names : List (String × String)) : Nat → State → Bool
  | 0, _ => false
  | n + 1, m =>
    (match m.control with
      | .enter func _ => names.all fun name => (env.links.getD .empty).get? name.1 name.2 != some (.func func)
      | _ => true) &&
    match step env m with
    | .next m => avoids env names n m
    | .finished _ _ => true

theorem avoids_spec {env : Environment} {names : List (String × String)} {n : Nat} {m m' : State}
    (h : avoids env names n m = true) (reached : Reaches env m m') {name : String × String} {vals : List Val}
    (enters : m'.Enters env name vals) : name ∉ names := by
  induction n generalizing m with
  | zero => cases h
  | succ n ih =>
      rw [avoids, Bool.and_eq_true] at h
      obtain ⟨here, later⟩ := h
      rcases Relation.ReflTransGen.cases_head reached with rfl | ⟨m₁, next, rest⟩
      · obtain ⟨func, entered, linked⟩ := enters
        rw [entered] at here
        intro among
        exact bne_iff_ne.mp (List.all_eq_true.mp here name among) linked
      · rw [next] at later
        exact ih later rest

/-- Whether the entry's own run enters none of the functions with these names. -/
def entryAvoids (names : List (String × String)) (e : Entry) (args : List Value) (s : Session) : Bool :=
  match ((⟨s.env, 1000, e.support⟩ : Boundary).pack args).run s.store with
  | some (.ok packed, t) => avoids s.env names 1000 ⟨t, .enter e.func [.i32 packed], []⟩
  | _ => true

theorem entryAvoids_spec {names : List (String × String)} {e : Entry} {args : List Value} {s : Session}
    (h : entryAvoids names e args s = true) {m : State} (passes : s.Passes 1000 e args m)
    {name : String × String} {vals : List Val} (enters : m.Enters s.env name vals) : name ∉ names := by
  obtain ⟨packed, t, packs, reached⟩ := passes
  rw [entryAvoids, packs] at h
  exact avoids_spec h reached enters

/-- Whether a script passes a test in a session with a live buffer. -/
def besideBuffer (source : Array UInt8) (test : Entry → Session → Bool) : Bool :=
  opensWith (openWith 1000 0 Builtin.compiler {}) <|
    loadsWith 1000 (Wasm.Binary.module makerModule).toArray fun e =>
      callsWith 1000 e [] fun _ => loadsWith 1000 source test

theorem besideBuffer_spec {source : Array UInt8} {test : Entry → Session → Bool}
    (h : besideBuffer source test = true) : ∃ s₀ host s₁ e listing s,
      openWith 1000 0 Builtin.compiler {} = some (.ok s₀, host) ∧ Reached s₀ s₁ ∧
        s₁.load 1000 source = some (.ok (e, listing), s) ∧ test e s = true := by
  obtain ⟨s₀, host, opened, h⟩ := opensWith_spec h
  obtain ⟨_, _, _, made, h⟩ := loadsWith_spec h
  obtain ⟨_, s₁, called, h⟩ := callsWith_spec h
  obtain ⟨e, listing, s, loaded, h⟩ := loadsWith_spec h
  exact ⟨s₀, host, s₁, e, listing, s, opened, .call (.load .start made) called, loaded, h⟩

set_option maxRecDepth 100000 in
/-- A script that stores no buffer and consumes none writes to one that is live, and leaves
another behind. -/
theorem forger_leaves : ∃ s₀ host s₁ e listing s r s',
    openWith 1000 0 Builtin.compiler {} = some (.ok s₀, host) ∧ Reached s₀ s₁ ∧
      s₁.load 1000 (Wasm.Binary.module forgerModule).toArray = some (.ok (e, listing), s) ∧
      s.store.export? e.inst "any_array_create" = none ∧
      (∀ m, s.Passes 1000 e [] m →
        ∀ name vals, m.Enters s.env name vals → name ∉ Capability.churning) ∧
      s.call 1000 e [] = some (r, s') ∧
      s.host.buffers.live[(1 : Handle)]? = some ⟨#[0]⟩ ∧ s'.host.buffers.live[(1 : Handle)]? = some ⟨#[7]⟩ ∧
      (2 : Handle) ∉ s.host.buffers.live ∧ (2 : Handle) ∈ s'.host.buffers.live := by
  have checked : besideBuffer (Wasm.Binary.module forgerModule).toArray (fun e s =>
      (s.store.export? e.inst "any_array_create").isNone && entryAvoids Capability.churning e [] s &&
        callsWith 1000 e [] (fun r s' => decide (s.host.buffers.live[(1 : Handle)]? = some ⟨#[0]⟩) &&
          decide (s'.host.buffers.live[(1 : Handle)]? = some ⟨#[7]⟩) &&
          decide ((2 : Handle) ∉ s.host.buffers.live) &&
          decide ((2 : Handle) ∈ s'.host.buffers.live)) s) = true := by
    decide +kernel
  obtain ⟨s₀, host, s₁, e, listing, s, opened, reached, loaded, passed⟩ := besideBuffer_spec checked
  rw [Bool.and_eq_true, Bool.and_eq_true, Option.isNone_iff_eq_none] at passed
  obtain ⟨⟨helpless, quiet⟩, calls⟩ := passed
  obtain ⟨r, s', called, passed⟩ := callsWith_spec calls
  simp only [Bool.and_eq_true, decide_eq_true_eq] at passed
  obtain ⟨⟨⟨before, after⟩, absent⟩, left⟩ := passed
  exact ⟨s₀, host, s₁, e, listing, s, r, s', opened, reached, loaded, helpless,
    fun m passes name vals => entryAvoids_spec quiet passes, called, before, after, absent, left⟩

set_option maxRecDepth 100000 in
/-- A script that returns its argument leaves the buffers as they are. -/
theorem echo_leaves_nothing : ∃ s₀ host s₁ e listing s r s',
    openWith 1000 0 Builtin.compiler {} = some (.ok s₀, host) ∧ Reached s₀ s₁ ∧
      s₁.load 1000 echoSource = some (.ok (e, listing), s) ∧
      s.call 1000 e [.text "é"] = some (.ok r, s') ∧
      s.host.buffers.live[(1 : Handle)]? = some ⟨#[0]⟩ ∧ s'.host.buffers.live = s.host.buffers.live := by
  have checked : besideBuffer echoSource (fun e s =>
      (s.store.export? e.inst "any_array_create").isNone &&
        entryAvoids (("buffer", "set") :: Capability.churning) e [.text "é"] s &&
        callsWith 1000 e [.text "é"] (fun r s' =>
          decide (s.host.buffers.live[(1 : Handle)]? = some ⟨#[0]⟩) && r.isOk) s) = true := by
    decide +kernel
  obtain ⟨s₀, host, s₁, e, listing, s, opened, reached, loaded, passed⟩ := besideBuffer_spec checked
  rw [Bool.and_eq_true, Bool.and_eq_true, Option.isNone_iff_eq_none] at passed
  obtain ⟨⟨helpless, avoids⟩, calls⟩ := passed
  obtain ⟨r, s', called, passed⟩ := callsWith_spec calls
  simp only [Bool.and_eq_true, decide_eq_true_eq] at passed
  obtain ⟨before, fine⟩ := passed
  cases r with
  | error error => cases fine
  | ok r =>
      refine ⟨s₀, host, s₁, e, listing, s, r, s', opened, reached, loaded, called, before, ?_⟩
      have quiet (m : State) (passes : s.Passes 1000 e [.text "é"] m) (name : String × String)
          (vals : List Val) (enters : m.Enters s.env name vals) : name ∉ Capability.churning :=
        fun among => entryAvoids_spec avoids passes enters (List.mem_cons_of_mem _ among)
      have unwritten (k : Handle) : ¬ s.Writes 1000 e [.text "é"] k := by
        rintro ⟨m, passes, vals, enters, _⟩
        exact entryAvoids_spec avoids passes enters List.mem_cons_self
      cases call_preserves_buffers rfl (supplies_builtin {}) rfl opened reached loaded helpless .start
        quiet called with
      | idle _ live => exact live
      | ran _ preserved live => exact live.trans (preserved.live_eq unwritten)
      | torn _ _ _ _ _ failed => cases failed

end Session

end GuestHost
