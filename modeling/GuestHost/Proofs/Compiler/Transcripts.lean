import GuestHost.Host

/-! How a compiler is consulted: a request, and the transcript of what its result is
asked. A host's trace grows by complete transcripts, one for each inquiry, and it tells what guests
ask for modules of. -/

namespace GuestHost

/-! ## One result -/

namespace Holder

variable {m : Type → Type} [Monad m] [LawfulMonad m]

/-- What was released on purpose is not released again at the end of the holder's life. -/
theorem finish_held (o : OutputSource m) : (⟨some o⟩ : Holder m).finish = o.release := by
  simp [finish, drop, release]

theorem drop_held (o : OutputSource m) : (⟨some o⟩ : Holder m).drop = o.release := by
  simp [drop, release]

end Holder

/-- What a result is asked, in order, when it is consumed. -/
def CompilerOutput.touches (o : CompilerOutput) (format : Option ListingFormat) : List Touch :=
  match o.error with
  | some _ => [.error, .release]
  | none => [.error, .payload] ++ format.toList.map .listing ++ [.sourceMap, .release]

theorem CompilerOutput.consume_touches (o : CompilerOutput) (format : Option ListingFormat) :
    (o.consume format).2 = o.touches format := by
  obtain ⟨error, payload, listing, sourceMap⟩ := o
  unfold consume OutputSource.consume
  cases error with
  | some text =>
      simp only [Holder.finish_held]
      rfl
  | none =>
      simp only [Holder.finish_held]
      cases format <;> rfl

/-! ## Inquiries -/

/-- A request, and the form in which its result is to be listed. -/
structure Inquiry where
  request : Request
  format : Option ListingFormat
  deriving DecidableEq, Repr

/-- The inquiry that a guest's request for a module comes to. Its result is not listed. -/
def Options.nested (o : Options) (source : Array UInt8) : Inquiry := ⟨.script source o, none⟩

/-- The complete record of an inquiry that `n` others went before. Nothing follows the
request if the compiler breaks down. -/
def Compiler.transcript (c : Compiler) (n : Nat) (i : Inquiry) : List Event :=
  .requested i.request ::
    match c.answerAt n i.request with
    | .error _ => []
    | .ok o => (o.touches i.format).map .touched

/-- The records of inquiries made one after the other, `n` others before them. -/
def Compiler.transcripts (c : Compiler) : Nat → List Inquiry → List Event
  | _, [] => []
  | n, i :: is => c.transcript n i ++ c.transcripts (n + 1) is

namespace Compiler

variable (c : Compiler)

theorem transcripts_append (n : Nat) (is js : List Inquiry) :
    c.transcripts n (is ++ js) = c.transcripts n is ++ c.transcripts (n + is.length) js := by
  induction is generalizing n with
  | nil => simp [transcripts]
  | cons i is ih =>
      simp only [List.cons_append, transcripts, List.length_cons, ih, List.append_assoc]
      rw [Nat.add_right_comm n 1, Nat.add_assoc n]

/-- A transcript holds one request. -/
theorem transcript_requests (n : Nat) (i : Inquiry) :
    (c.transcript n i).countP Event.isRequest = 1 := by
  unfold transcript
  cases c.answerAt n i.request with
  | error text => rfl
  | ok o =>
      have none : ((o.touches i.format).map Event.touched).countP Event.isRequest = 0 := by
        simp [Event.isRequest]
      rw [List.countP_cons_of_pos rfl, none]

theorem transcripts_requests (n : Nat) (is : List Inquiry) :
    (c.transcripts n is).countP Event.isRequest = is.length := by
  induction is generalizing n with
  | nil => rfl
  | cons i is ih =>
      rw [transcripts, List.countP_append, transcript_requests, ih, List.length_cons, Nat.add_comm]

end Compiler

/-! ## Traces -/

/-- The event is one of the compiler's concern. -/
def Event.isCompilation : Event → Bool
  | .requested _ | .touched _ => true
  | _ => false

/-- The log of what a compiler and its results were asked. -/
def compilations (events : Array Event) : List Event := events.toList.filter Event.isCompilation

@[simp] theorem compilations_append (xs ys : Array Event) :
    compilations (xs ++ ys) = compilations xs ++ compilations ys := by
  simp [compilations]

/-- Requests are counted in the log alone. -/
theorem countP_isRequest (events : Array Event) :
    events.countP Event.isRequest = (compilations events).countP Event.isRequest := by
  rw [compilations, List.countP_filter, ← Array.countP_toList]
  congr 1
  funext e
  cases e <;> rfl

/-- A transcript holds nothing of another concern. -/
theorem Compiler.isCompilation_of_mem (c : Compiler) {n : Nat} {i : Inquiry} {e : Event}
    (h : e ∈ c.transcript n i) : e.isCompilation = true := by
  unfold transcript at h
  rcases List.mem_cons.mp h with rfl | h
  · rfl
  · split at h
    · cases h
    · obtain ⟨t, _, rfl⟩ := List.mem_map.mp h
      rfl

/-- All of a transcript is of the compiler's concern. -/
theorem Compiler.compilations_transcript (c : Compiler) (n : Nat) (i : Inquiry) :
    compilations (c.transcript n i).toArray = c.transcript n i :=
  List.filter_eq_self.mpr fun _ he => c.isCompilation_of_mem he

/-! ## What guests ask for -/

/-- The buffer that a guest asks for a module from, with the bytes in it if it is live. -/
def Event.asked? : Event → Option (Handle × Option (Array UInt8))
  | .loadIssued buffer source => some (buffer, source)
  | _ => none

@[simp] theorem Event.asked?_loadIssued (buffer : Handle) (source : Option (Array UInt8)) :
    (Event.loadIssued buffer source).asked? = some (buffer, source) := rfl

/-- The bytes that a guest asks for a module of. -/
def Event.source? (e : Event) : Option (Array UInt8) := e.asked?.bind Prod.snd

@[simp] theorem Event.source?_loadIssued (buffer : Handle) (source : Option (Array UInt8)) :
    (Event.loadIssued buffer source).source? = source := rfl

/-- The bytes that guests asked for modules of, in order. -/
def sources (events : Array Event) : List (Array UInt8) := events.toList.filterMap Event.source?

@[simp] theorem sources_append (xs ys : Array Event) : sources (xs ++ ys) = sources xs ++ sources ys := by
  simp [sources]

theorem Event.source?_of_isCompilation {e : Event} (h : e.isCompilation = true) : e.source? = none := by
  cases e with
  | requested | touched => rfl
  | wrote | noted | loadIssued | loadReturned | loadFailed => cases h

theorem Event.source?_of_isRemark {e : Event} (h : e.isRemark = true) : e.source? = none := by
  cases e with
  | wrote | noted => rfl
  | requested | touched | loadIssued | loadReturned | loadFailed => cases h

theorem sources_eq_nil {events : List Event} (unasked : ∀ e ∈ events, e.source? = none) :
    sources events.toArray = [] :=
  List.filterMap_eq_nil_iff.mpr unasked

@[simp] theorem sources_transcript (c : Compiler) (n : Nat) (i : Inquiry) :
    sources (c.transcript n i).toArray = [] :=
  sources_eq_nil fun _ among => Event.source?_of_isCompilation (c.isCompilation_of_mem among)

namespace Host

theorem requests_record {h : Host} {e : Event} (other : e.isRequest = false) :
    (h.record e).requests = h.requests := by
  simp [requests, record, other]

/-- Between the two hosts the inquiries were made and recorded, and no others. -/
def Consulted (h : Host) (c : Compiler) (is : List Inquiry) (h' : Host) : Prop :=
  ∃ new, h'.trace = h.trace ++ new ∧ compilations new = c.transcripts h.requests is

namespace Consulted

variable {c : Compiler} {a b d : Host} {is js : List Inquiry}

theorem requests (h : a.Consulted c is b) : b.requests = a.requests + is.length := by
  obtain ⟨new, trace, log⟩ := h
  rw [Host.requests, trace, Array.countP_append, countP_isRequest new, log, c.transcripts_requests]
  rfl

theorem trans (h : a.Consulted c is b) (h' : b.Consulted c js d) :
    a.Consulted c (is ++ js) d := by
  have number := h.requests
  obtain ⟨new, trace, log⟩ := h
  obtain ⟨new', trace', log'⟩ := h'
  refine ⟨new ++ new', by rw [trace', trace, Array.append_assoc], ?_⟩
  rw [compilations_append, log, log', c.transcripts_append, number]

/-- Events of another concern are no inquiries. -/
theorem of_trace (new : Array Event) (trace : b.trace = a.trace ++ new)
    (silent : compilations new = []) : a.Consulted c [] b :=
  ⟨new, trace, silent⟩

theorem of_trace_eq (trace : b.trace = a.trace) : a.Consulted c [] b :=
  .of_trace #[] (by rw [trace, Array.append_empty]) rfl

end Consulted

theorem foldl_touched (h : Host) (touches : List Touch) :
    touches.foldl (fun h t => h.record (.touched t)) h =
      { h with trace := h.trace ++ (touches.map Event.touched).toArray } := by
  induction touches generalizing h with
  | nil => simp
  | cons t ts ih =>
      rw [List.foldl_cons, ih]
      simp [record]

/-- To compile is to add one transcript to the trace, and nothing else. -/
theorem compile_host (h : Host) (c : Compiler) (r : Request) (format : Option ListingFormat) :
    (h.compile c r format).2 =
      { h with trace := h.trace ++ (c.transcript h.requests ⟨r, format⟩).toArray } := by
  unfold compile Compiler.transcript
  cases c.answerAt h.requests r with
  | error text => simp [record]
  | ok o =>
      dsimp only
      rw [foldl_touched, o.consume_touches]
      simp [record]

theorem compile_trace (h : Host) (c : Compiler) (r : Request) (format : Option ListingFormat) :
    (h.compile c r format).2.trace = h.trace ++ (c.transcript h.requests ⟨r, format⟩).toArray :=
  congrArg Host.trace (compile_host h c r format)

theorem compile_buffers (h : Host) (c : Compiler) (r : Request) (format : Option ListingFormat) :
    (h.compile c r format).2.buffers = h.buffers := by
  rw [compile_host]

/-- To compile is to make one inquiry. -/
theorem compile_consulted (h : Host) (c : Compiler) (r : Request) (format : Option ListingFormat) :
    h.Consulted c [⟨r, format⟩] (h.compile c r format).2 := by
  refine ⟨_, compile_trace h c r format, ?_⟩
  rw [c.compilations_transcript, Compiler.transcripts, Compiler.transcripts, List.append_nil]

end Host

end GuestHost
