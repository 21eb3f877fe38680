import GuestHost.Compiler.Foreign
import GuestHost.Proofs.Compiler.Transcripts
import GuestHost.Proofs.Utf8

/-! A compiler behind a C interface answers as one whose results are plain data. Of a result it
is asked what the host asks for and no more, and then it is told, once, to clean it up. -/

namespace GuestHost

/-! ## Runs that keep a log -/

section Logs

variable {ε α β : Type}

/-- The run comes to an answer and adds to the log, whatever is on it. -/
def Logs (x : StateM (List ε) α) (a : α) (added : List ε) : Prop := ∀ log, x.run log = (a, log ++ added)

namespace Logs

variable {x : StateM (List ε) α} {f : α → StateM (List ε) β} {a : α} {b : β} {added later : List ε}

theorem pure (a : α) : Logs (Pure.pure a : StateM (List ε) α) a [] := by
  intro log
  rw [List.append_nil]
  rfl

theorem bind (h : Logs x a added) (h' : Logs (f a) b later) : Logs (x >>= f) b (added ++ later) := by
  intro log
  rw [StateT.run_bind, h log, ← List.append_assoc]
  exact h' _

theorem map (g : α → β) (h : Logs x a added) :
    Logs (x >>= fun a => Pure.pure (g a)) (g a) added := by
  have done := h.bind (f := fun a => Pure.pure (g a)) (pure (g a))
  rwa [List.append_nil] at done

theorem of_eq (h : Logs x a added) (same : added = later) : Logs x a later := same ▸ h

/-- Steps that are logged one by one. -/
theorem mapM {f : α → StateM (List ε) β} {g : α → β} {events : α → List ε}
    (h : ∀ a, Logs (f a) (g a) (events a)) (as : List α) :
    Logs (as.mapM f) (as.map g) (as.flatMap events) := by
  induction as with
  | nil => exact pure []
  | cons a as ih =>
      rw [List.mapM_cons, List.map_cons, List.flatMap_cons]
      exact (h a).bind (ih.map (g a :: ·))

end Logs

end Logs

/-! ## The life of a result -/

/-- A part of a result. -/
inductive Part
  | error
  | payload
  | listing (f : ListingFormat)
  | sourceMap
  deriving DecidableEq, Repr

def Part.touch : Part → Touch
  | .error => .error
  | .payload => .payload
  | .listing f => .listing f
  | .sourceMap => .sourceMap

/-- What is read of a part. -/
inductive Reading
  | text (t : Option String)
  | bytes (b : Array UInt8)
  deriving DecidableEq, Repr

namespace OutputSource

variable {m : Type → Type} [Monad m]

def read (o : OutputSource m) : Part → m Reading
  | .error => return .text (← o.error)
  | .payload => return .bytes (← o.payload)
  | .listing f => return .text (← o.listing f)
  | .sourceMap => return .text (← o.sourceMap)

end OutputSource

namespace CompilerOutput

def read (o : CompilerOutput) : Part → Reading
  | .error => .text o.error
  | .payload => .bytes o.payload
  | .listing f => .text (o.listing f)
  | .sourceMap => .text o.sourceMap

/-- What is read of a result that is consumed. -/
def parts (o : CompilerOutput) (format : Option ListingFormat) : List Part :=
  match o.error with
  | some _ => [.error]
  | none => [.error, .payload] ++ format.toList.map .listing ++ [.sourceMap]

end CompilerOutput

/-- A source that answers as plain data does, each part by a run of its own events. -/
structure OutputSource.Tells {ε : Type} (s : OutputSource (StateM (List ε))) (o : CompilerOutput)
    (events : Touch → List ε) : Prop where
  error : Logs s.error o.error (events .error)
  payload : Logs s.payload o.payload (events .payload)
  listing : ∀ f, Logs (s.listing f) (o.listing f) (events (.listing f))
  sourceMap : Logs s.sourceMap o.sourceMap (events .sourceMap)
  release : Logs s.release () (events .release)

namespace OutputSource.Tells

variable {ε : Type} {s : OutputSource (StateM (List ε))} {o : CompilerOutput} {events : Touch → List ε}

theorem read (h : s.Tells o events) (p : Part) : Logs (s.read p) (o.read p) (events p.touch) := by
  cases p with
  | error => exact h.error.map Reading.text
  | payload => exact h.payload.map Reading.bytes
  | listing f => exact (h.listing f).map Reading.text
  | sourceMap => exact h.sourceMap.map Reading.text

/-- A life in which some parts are read, and that ends with a release. -/
theorem live (h : s.Tells o events) (parts : List Part) :
    Logs (do
        let readings ← parts.mapM s.read
        s.release
        return readings) (parts.map o.read)
      (parts.flatMap (fun p => events p.touch) ++ events .release) :=
  (Logs.mapM h.read parts).bind (h.release.map fun _ => parts.map o.read)

theorem consume (h : s.Tells o events) (format : Option ListingFormat) :
    Logs (s.consume format) (o.consume format).1
      ((o.parts format).flatMap (fun p => events p.touch) ++ events .release) := by
  obtain ⟨error, payload, listing, sourceMap⟩ := o
  unfold OutputSource.consume
  simp only [Holder.finish_held]
  cases error with
  | some text =>
      refine (h.error.bind (h.release.map fun _ => Except.error (Error.compile text))).of_eq ?_
      simp [CompilerOutput.parts, Part.touch]
  | none =>
      have released (listed : Option String) :=
        h.release.map fun _ => (Except.ok ⟨payload, listed, sourceMap⟩ : Except Error Decoded)
      cases format with
      | none =>
          refine (h.error.bind <| h.payload.bind <| (Logs.pure none).bind <|
            h.sourceMap.bind <| released none).of_eq ?_
          simp [CompilerOutput.parts, Part.touch]
      | some f =>
          refine (h.error.bind <| h.payload.bind <| (h.listing f).bind <|
            h.sourceMap.bind <| released (listing f)).of_eq ?_
          simp [CompilerOutput.parts, Part.touch]

end OutputSource.Tells

namespace Foreign

/-! ## What a result says -/

/-- What a pointer to characters spells. They go up to the first zero, which may stand right
after the end. Nothing is spelt by null, nor by no characters. -/
inductive Spells : Option (Array UInt8) → Option String → Prop
  | null : Spells none none
  | empty {rest : Array UInt8} (ends : rest[0]?.getD 0 = 0) : Spells (some rest) none
  | text {chars rest : Array UInt8} (nonempty : chars ≠ #[]) (unbroken : 0 ∉ chars)
      (ends : rest[0]?.getD 0 = 0) : Spells (some (chars ++ rest)) (some (Utf8.decodeLossy chars))

/-- The bytes that a pointer and a size cover. -/
inductive Covers : Option (Array UInt8) → Nat → Array UInt8 → Prop
  | null {size : Nat} : Covers none size #[]
  | bytes (covered rest : Array UInt8) : Covers (some (covered ++ rest)) covered.size covered

/-- The plain data that a result reads as. -/
inductive ReadsAs : Option Result → CompilerOutput → Prop
  | null : ReadsAs none { error := some noResult }
  | result {r : Result} {o : CompilerOutput} (error : Spells r.error o.error)
      (payload : Covers r.data r.size o.payload) (listing : ∀ f, Spells (r.listing f) (o.listing f))
      (sourceMap : Spells r.sourceMap o.sourceMap) : ReadsAs (some r) o

/-- The data of a result is as long as it says. -/
def Result.Sound (r : Result) : Prop := ∀ data, r.data = some data → r.size ≤ data.size

section Texts

variable {chars rest : Array UInt8} {pointer : Option (Array UInt8)} {t : Option String}

theorem takeWhile_cut (unbroken : 0 ∉ chars) (ends : rest[0]?.getD 0 = 0) :
    (chars ++ rest).takeWhile (· != 0) = chars := by
  have inside : ∀ b ∈ chars.toList, (b != 0) = true := by
    intro b mem
    rw [bne_iff_ne]
    rintro rfl
    exact unbroken (Array.mem_toList_iff.mp mem)
  apply Array.toList_inj.mp
  rw [Array.toList_takeWhile, Array.toList_append, List.takeWhile_append_of_pos inside]
  obtain ⟨rest⟩ := rest
  cases rest with
  | nil => simp
  | cons b bs =>
      have zero : b = 0 := ends
      simp [zero]

/-- Every byte string is cut at its first zero, or at its end. -/
theorem exists_cut (bytes : Array UInt8) :
    ∃ chars rest : Array UInt8, bytes = chars ++ rest ∧ 0 ∉ chars ∧ rest[0]?.getD 0 = 0 := by
  obtain ⟨bytes⟩ := bytes
  induction bytes with
  | nil => exact ⟨#[], #[], rfl, Array.not_mem_empty 0, rfl⟩
  | cons b bs ih =>
      by_cases zero : b = 0
      · exact ⟨#[], ⟨b :: bs⟩, by simp, Array.not_mem_empty 0, zero⟩
      · obtain ⟨chars, rest, split, unbroken, ends⟩ := ih
        refine ⟨#[b] ++ chars, rest, ?_, ?_, ends⟩
        · rw [Array.append_assoc, ← split]
          simp
        · simp [unbroken, Ne.symm zero]

theorem text?_cut (unbroken : 0 ∉ chars) (ends : rest[0]?.getD 0 = 0) :
    text? (some (chars ++ rest)) = if chars = #[] then none else some (Utf8.decodeLossy chars) := by
  simp only [text?, Option.bind_some, takeWhile_cut unbroken ends, String.isEmpty_iff,
    Utf8.decodeLossy_eq_empty]

theorem Spells.text?_eq (h : Spells pointer t) : text? pointer = t := by
  cases h with
  | null => rfl
  | empty ends => simpa using text?_cut (Array.not_mem_empty 0) ends
  | text nonempty unbroken ends => rw [text?_cut unbroken ends, if_neg nonempty]

theorem spells_text? (pointer : Option (Array UInt8)) : Spells pointer (text? pointer) := by
  cases pointer with
  | none => exact .null
  | some bytes =>
      obtain ⟨chars, rest, rfl, unbroken, ends⟩ := exists_cut bytes
      rw [text?_cut unbroken ends]
      by_cases empty : chars = #[]
      · rw [if_pos empty, empty, Array.empty_append]
        exact .empty ends
      · rw [if_neg empty]
        exact .text empty unbroken ends

end Texts

section Payloads

variable {r : Result}

theorem Covers.payload_eq {bytes : Array UInt8} (h : Covers r.data r.size bytes) : r.payload = bytes := by
  obtain ⟨error, data, size, listing, sourceMap⟩ := r
  cases h with
  | null => rfl
  | bytes => simp [Result.payload]

theorem Result.Sound.covers (sound : r.Sound) : Covers r.data r.size r.payload := by
  unfold Result.payload
  cases present : r.data with
  | none => exact .null
  | some data =>
      have enough := sound data present
      have split : data = data.take r.size ++ data.extract r.size := by simp [enough]
      have size : (data.take r.size).size = r.size := by simp [enough]
      have covers := Covers.bytes (data.take r.size) (data.extract r.size)
      rwa [← split, size] at covers

end Payloads

/-- A result whose size is right reads as plain data. -/
theorem exists_readsAs {result : Option Result} (sound : ∀ r, result = some r → r.Sound) :
    ∃ o, ReadsAs result o := by
  cases result with
  | none => exact ⟨_, .null⟩
  | some r =>
      exact ⟨⟨text? r.error, r.payload, fun f => text? (r.listing f), text? r.sourceMap⟩,
        .result (spells_text? _) (sound r rfl).covers (fun _ => spells_text? _) (spells_text? _)⟩

/-! ## The calls made -/

theorem call_logs {α : Type} (c : Call) (a : α) : Logs (call c a) a [c] := fun _ => rfl

/-- The ways in which the life of a result ends: it is released, or let go of; or it has a holder,
and that releases it on purpose, or is let go of itself. -/
inductive Ending
  | released
  | dropped
  | finished
  | abandoned
  deriving DecidableEq, Repr

def close (result : Option Result) : Ending → StateM (List Call) Unit
  | .released => (source result).release
  | .dropped => do
    let _ ← (⟨result⟩ : Output).drop
  | .finished => (⟨some (source result)⟩ : Holder (StateM (List Call))).finish
  | .abandoned => (⟨some (source result)⟩ : Holder (StateM (List Call))).drop

/-- Every end is one release. -/
theorem close_eq (result : Option Result) (ending : Ending) :
    close result ending = (source result).release := by
  cases ending with
  | released => rfl
  | dropped => cases result <;> rfl
  | finished => exact Holder.finish_held _
  | abandoned => exact Holder.drop_held _

/-- The whole life of a result: what is read of it, and its end. -/
def live (result : Option Result) (parts : List Part) (ending : Ending) :
    StateM (List Call) (List Reading) := do
  let readings ← parts.mapM (source result).read
  close result ending
  return readings

/-- The calls that a result takes to be asked for something. -/
def Call.asking : Touch → List Call
  | .error => [.getError]
  | .payload => [.getSize, .getData]
  | .listing f => [.getListing f]
  | .sourceMap => [.getSourceMap]
  | .release => [.cleanUp]

/-- The calls made on a result in the course of its life. There are none on null. -/
def callsOn (result : Option Result) (parts : List Part) : List Call :=
  match result with
  | none => []
  | some _ => parts.flatMap (fun p => Call.asking p.touch) ++ [.cleanUp]

/-- A result that is there is cleaned up once. -/
theorem count_cleanUp (result : Option Result) (parts : List Part) :
    (callsOn result parts).count .cleanUp = if result.isSome then 1 else 0 := by
  cases result with
  | none => rfl
  | some r =>
      have spared (p : Part) : .cleanUp ∉ Call.asking p.touch := by cases p <;> simp [Part.touch, Call.asking]
      have unended : (parts.flatMap fun p => Call.asking p.touch).count .cleanUp = 0 := by
        rw [List.count_eq_zero, List.mem_flatMap]
        rintro ⟨p, _, mem⟩
        exact spared p mem
      rw [callsOn, List.count_append, unended]
      rfl

variable {result : Option Result} {o : CompilerOutput}

/-- No call is made on null; on another result, those of each thing that is asked. -/
theorem source_tells (h : ReadsAs result o) :
    (source result).Tells o fun t => if result.isSome then Call.asking t else [] := by
  cases h with
  | null => exact ⟨.pure _, .pure _, fun _ => .pure _, .pure _, .pure ()⟩
  | result error payload listing sourceMap =>
      constructor
      · exact error.text?_eq ▸ call_logs _ _
      · exact payload.payload_eq ▸ (call_logs _ _).bind (call_logs _ _)
      · exact fun f => (listing f).text?_eq ▸ call_logs _ _
      · exact sourceMap.text?_eq ▸ call_logs _ _
      · exact call_logs _ _

theorem callsOn_eq (result : Option Result) (parts : List Part) :
    (parts.flatMap fun p => if result.isSome then Call.asking p.touch else []) ++
      (if result.isSome then Call.asking .release else []) = callsOn result parts := by
  cases result with
  | none => simp [callsOn]
  | some r => rfl

namespace Library

/-- Makes a request and lets the result live. -/
def use (l : Library) (r : Request) (parts : List Part) (ending : Ending) : List Reading × List Call :=
  (do
    call (.of r) ()
    live (l.answer r) parts ending : StateM (List Call) (List Reading)).run []

/-- Whatever a foreign compiler makes of a request, it is read as the plain data that it stands
for, by the calls that this takes and no others; then it is cleaned up. -/
theorem answers_refine (l : Library) (request : Request) :
    ((∀ r, l.answer request = some r → r.Sound) → ∃ o, ReadsAs (l.answer request) o) ∧
    (∀ o, ReadsAs (l.answer request) o →
      (∀ parts ending, l.use request parts ending =
        (parts.map o.read, .of request :: callsOn (l.answer request) parts)) ∧
      ∀ format, l.compile request format =
        ((o.consume format).1, .of request :: callsOn (l.answer request) (o.parts format))) ∧
    ∀ parts, (callsOn (l.answer request) parts).count .cleanUp =
      if (l.answer request).isSome then 1 else 0 := by
  refine ⟨exists_readsAs, fun o reads => ⟨fun parts ending => ?_, fun format => ?_⟩, count_cleanUp _⟩
  · have lived := ((source_tells reads).live parts).of_eq (callsOn_eq _ parts)
    rw [← close_eq _ ending] at lived
    exact (call_logs (.of request) ()).bind lived []
  · have consumed := ((source_tells reads).consume format).of_eq (callsOn_eq _ (o.parts format))
    exact (call_logs (.of request) (source (l.answer request))).bind consumed []

end Library

/-- A foreign compiler that has more data than it says, a listing with a stray byte and a zero in
it, and no support module. -/
def stray : Library where
  answer r :=
    if r = .support true then none
    else some
      { error := some #[]
        data := some #[1, 2, 3]
        size := 2
        listing := fun f => if f = .function then some #[0x28, 0xFF, 0x29, 0, 0x7A] else none }

def strayOutput : CompilerOutput where
  payload := #[1, 2]
  listing f := if f = .function then some "(\uFFFD)" else none

theorem stray_refined :
    ReadsAs (stray.answer (.support false)) strayOutput ∧
    stray.compile (.support false) (some .function) =
      (.ok ⟨#[1, 2], some "(\uFFFD)", none⟩,
        [.support false, .getError, .getSize, .getData, .getListing .function, .getSourceMap, .cleanUp]) ∧
    ∃ o, ReadsAs (stray.answer (.support true)) o ∧
      stray.use (.support true) [.payload, .error] .dropped =
        ([.payload, .error].map o.read, [.support true]) := by
  have spelt (f : ListingFormat) : text? (if f = .function then some #[0x28, 0xFF, 0x29, 0, 0x7A] else none) =
      strayOutput.listing f := by
    cases f <;> decide +kernel
  have reads : ReadsAs (stray.answer (.support false)) strayOutput :=
    .result (.empty rfl) (.bytes #[1, 2] #[3]) (fun f => spelt f ▸ spells_text? _) .null
  refine ⟨reads, ((stray.answers_refine (.support false)).2.1 _ reads).2 (some .function), ?_⟩
  obtain ⟨exists_reads, refines, _⟩ := stray.answers_refine (.support true)
  obtain ⟨o, absent⟩ := exists_reads fun r present => by cases present
  exact ⟨o, absent, (refines o absent).1 [.payload, .error] .dropped⟩

end Foreign

end GuestHost
