import GuestHost.Proofs.Handles
import GuestHost.Proofs.Machine.Lasting
import GuestHost.Proofs.Session.Congruence
import GuestHost.Session.Basic

/-! What work on a store keeps, whether it succeeds or not: crossing the boundary keeps
every relation that guest code and the host's own use of buffers keep. -/

namespace GuestHost

open Machine

/-- What is stored lies under the fresh handle, and of the host nothing else changes. -/
theorem Host.insert_eq_some {h h' : Host} {bytes : ByteArray} {buffer : Handle} :
    h.insert bytes = some (buffer, h') ↔ h.buffers.fresh ∉ h.buffers.live ∧ buffer = h.buffers.fresh ∧
      h' = { h with
        buffers := ⟨h.buffers.fresh, h.buffers.live.insert h.buffers.fresh bytes, h.buffers.fresh_nonneg⟩ } := by
  rw [Host.insert, Option.map_eq_some_iff]
  constructor
  · rintro ⟨⟨k, t⟩, stored, same⟩
    obtain ⟨free, rfl, rfl⟩ := Buffers.insert_eq_some.mp stored
    cases same
    exact ⟨free, rfl, rfl⟩
  · rintro ⟨free, rfl, rfl⟩
    exact ⟨_, Buffers.insert_of_free free, rfl⟩

namespace Guest

variable {α β : Type}

theorem run_bind (x : Guest α) (f : α → Guest β) (s : Store) :
    (x >>= f).run s = (x.run s).bind fun
      | (.ok a, s) => (f a).run s
      | (.error e, s) => some (.error e, s) := by
  change (x.run s).bind _ = (x.run s).bind _
  congr 1
  funext p
  obtain ⟨_ | _, _⟩ := p <;> rfl

/-- Work that has an answer either stopped at its first part, or did the second on the
store that the first left. -/
theorem run_bind_eq_some {x : Guest α} {f : α → Guest β} {s s' : Store} {r : Except Error β}
    (h : (x >>= f).run s = some (r, s')) :
    (∃ e, x.run s = some (.error e, s') ∧ r = .error e) ∨
      ∃ a s₁, x.run s = some (.ok a, s₁) ∧ (f a).run s₁ = some (r, s') := by
  rw [run_bind] at h
  obtain ⟨⟨r₁, s₁⟩, hx, h⟩ := Option.bind_eq_some_iff.mp h
  cases r₁ with
  | error e =>
      cases h
      exact .inl ⟨e, hx, rfl⟩
  | ok a => exact .inr ⟨a, s₁, hx, h⟩

/-- Catching the error of work makes it an answer. -/
theorem run_caught (work : Guest α) (s : Store) :
    (tryCatch (Except.ok <$> work) fun e => pure (Except.error e) : Guest (Except Error α)).run s =
      (work.run s).map fun p => (.ok p.1, p.2) := by
  change ((work.run s).bind _).bind _ = _
  cases work.run s with
  | none => rfl
  | some p =>
      obtain ⟨_ | a, s⟩ := p
      · rfl
      · rfl

/-- Whenever the work has an answer, the store it leaves is related to the one it found. -/
def Keeps (R : Store → Store → Prop) (x : Guest α) : Prop :=
  ∀ ⦃s s' r⦄, x.run s = some (r, s') → R s s'

namespace Keeps

variable {env : Environment} {R : Store → Store → Prop}

theorem pure (h : Machine.Lasting env R) (a : α) : Keeps R (Pure.pure a : Guest α) := by
  intro s s' r ended
  cases ended
  exact h.refl s

theorem throw (h : Machine.Lasting env R) (e : Error) : Keeps R (MonadExcept.throw e : Guest α) := by
  intro s s' r ended
  cases ended
  exact h.refl s

theorem bind (h : Machine.Lasting env R) {x : Guest α} {f : α → Guest β}
    (hx : Keeps R x) (hf : ∀ a, Keeps R (f a)) : Keeps R (x >>= f) := by
  intro s s' r ended
  rcases run_bind_eq_some ended with ⟨e, h₁, _⟩ | ⟨a, s₁, h₁, h₂⟩
  · exact hx h₁
  · exact h.trans (hx h₁) (hf a h₂)

theorem tryCatch (h : Machine.Lasting env R) {x : Guest α} {f : Error → Guest α}
    (hx : Keeps R x) (hf : ∀ e, Keeps R (f e)) :
    Keeps R (MonadExcept.tryCatch x f) := by
  intro s s' r ended
  change (x.run s).bind _ = _ at ended
  obtain ⟨⟨r₁, s₁⟩, h₁, h₂⟩ := Option.bind_eq_some_iff.mp ended
  cases r₁ with
  | ok a =>
      cases h₂
      exact hx h₁
  | error e => exact h.trans (hx h₁) (hf e h₂)

theorem get (h : Machine.Lasting env R) : Keeps R (MonadState.get : Guest Store) := by
  intro s s' r ended
  cases ended
  exact h.refl s

theorem lift {f : Store → Option (α × Store)} (hf : ∀ ⦃s a s'⦄, f s = some (a, s') → R s s') :
    Keeps R (ExceptT.lift f : Guest α) := by
  intro s s' r h
  change (f s).bind _ = _ at h
  obtain ⟨⟨a, s₁⟩, h₁, h₂⟩ := Option.bind_eq_some_iff.mp h
  cases h₂
  exact hf h₁

end Keeps

end Guest

/-- A relation that holds across everything a session can do to a store while a call is
answered: runs of guest code, and buffers that the host stores and takes. -/
structure Session.Lasting (env : Environment) (R : Store → Store → Prop) : Prop
    extends Machine.Lasting env R where
  insert : ∀ ⦃s bytes buffer host⦄, s.host.insert bytes = some (buffer, host) → R s { s with host }
  take : ∀ s buffer, R s { s with host := (s.host.take buffer).2 }

/-- What such a relation carries from one store to the other is never lost. -/
theorem Session.Lasting.preserves {env : Environment} {R : Store → Store → Prop} {P : Store → Prop}
    (h : Session.Lasting env R) (carries : ∀ {s s'}, R s s' → P s → P s') :
    Session.Lasting env fun s s' => P s → P s' where
  refl _ holds := holds
  trans h h' holds := h' (h holds)
  act act := carries (h.act act)
  failed s cause other := carries (h.failed s cause other)
  entryless s := carries (h.entryless s)
  insert _ _ _ _ stored := carries (h.insert stored)
  take s buffer := carries (h.take s buffer)

/-- What may become of a store in a session: guest code acts on it, and whatever happens to the
host. -/
inductive Machine.Becomes (env : Environment) (s : Store) : Store → Prop
  | start : Becomes env s s
  | act {t t' : Store} {n n' : Nat} (earlier : Becomes env s t) (act : Act env (t, n) (t', n')) :
      Becomes env s t'
  | host {t : Store} (earlier : Becomes env s t) (host : Host) : Becomes env s { t with host }

theorem Machine.Becomes.keeps {env : Environment} {R : Store → Store → Prop} (h : Machine.Lasting env R)
    (hosts : ∀ s host, R s { s with host }) {s t : Store} (becomes : Becomes env s t) : R s t := by
  induction becomes with
  | start => exact h.refl s
  | act _ act ih => exact h.trans ih (h.act act)
  | host _ host ih => exact h.trans ih (hosts _ host)

theorem becomes_lasting (env : Environment) : Session.Lasting env (Becomes env) where
  refl _ := .start
  trans {a b c} h h' := by
    induction h' with
    | start => exact h
    | act _ act ih => exact ih.act act
    | host _ host ih => exact ih.host host
  act := .act .start
  failed _ _ _ := .host .start _
  entryless _ := .host .start _
  insert _ _ _ _ _ := .host .start _
  take _ _ := .host .start _

namespace Boundary

open Guest

variable {b : Boundary} {R : Store → Store → Prop}

theorem onHost_keeps {α : Type} {f : Host → α × Host} (hf : ∀ s, R s { s with host := (f s.host).2 }) :
    Keeps R (onHost f) := by
  refine .lift ?_
  intro s a s' h
  cases h
  exact hf s

theorem storeBuffer_keeps {bytes : ByteArray}
    (hf : ∀ ⦃s buffer host⦄, s.host.insert bytes = some (buffer, host) → R s { s with host }) :
    Keeps R (storeBuffer bytes) := by
  refine .lift fun s buffer s' ended => ?_
  obtain ⟨⟨k, host⟩, stored, same⟩ := Option.map_eq_some_iff.mp ended
  cases same
  exact hf stored

theorem invoke_keeps (h : Machine.Lasting b.env R) (func : Nat) (args : List Val) :
    Keeps R (b.invoke func args) :=
  .lift fun _ _ _ ended => h.invoke ended

theorem helper_keeps (h : Machine.Lasting b.env R) (name : String) (type : Wasm.FuncType)
    (args : List Val) : Keeps R (b.helper name type args) := by
  refine .bind h (.get h) fun s => ?_
  split
  · exact .throw h _
  · refine .bind h (invoke_keeps h _ _) fun r => ?_
    split
    · exact .pure h _
    · exact .throw h _

theorem word_keeps (h : Machine.Lasting b.env R) (name : String) (params : List Wasm.ValType)
    (args : List Val) : Keeps R (b.word name params args) := by
  refine .bind h (helper_keeps h _ _ _) fun vals => ?_
  split
  · exact .pure h _
  · exact .throw h _

theorem storeBuffer_run (bytes : ByteArray) (s : Store) :
    (storeBuffer bytes).run s =
      (s.host.insert bytes).map fun (buffer, host) => (.ok buffer, { s with host }) := by
  change ((s.host.insert bytes).map _).bind _ = _
  cases s.host.insert bytes <;> rfl

/-- Boxing a text comes to what its box comes to. The buffer that holds its bytes until then
is taken either way. -/
theorem lowerText_ends {text : String} {s s' : Store} {r : Except Error UInt32}
    (ended : (b.lowerText text).run s = some (r, s')) :
    ∃ buffer host t, s.host.insert ⟨Utf8.encode text⟩ = some (buffer, host) ∧
      (b.word "box_string" [.i32] [.ofInt32 buffer]).run { s with host } = some (r, t) ∧
      s' = { t with host := (t.host.take buffer).2 } := by
  rw [lowerText, Guest.run_bind, storeBuffer_run, Option.bind_map] at ended
  obtain ⟨⟨buffer, host⟩, stored, ended⟩ := Option.bind_eq_some_iff.mp ended
  dsimp only [Function.comp_apply] at ended
  rw [Guest.run_bind, Guest.run_caught, Option.bind_map] at ended
  obtain ⟨⟨boxed, t⟩, boxing, ended⟩ := Option.bind_eq_some_iff.mp ended
  refine ⟨buffer, host, t, stored, ?_⟩
  -- What was caught is told after the buffer is taken.
  cases boxed with
  | ok w =>
      cases ended
      exact ⟨boxing, rfl⟩
  | error e =>
      cases ended
      exact ⟨boxing, rfl⟩

/-- How the text in a box is read: copying it to the host fails, or it is what the buffer that
it was copied to holds, which is taken. -/
inductive LiftsText (b : Boundary) (v : UInt32) (s : Store) : Except Error Value → Store → Prop
  | refused {e : Error} {s' : Store}
      (failed : (b.word "to_host_string" [.i32] [.i32 v]).run s = some (.error e, s')) :
      LiftsText b v s (.error e) s'
  | copied {buffer : UInt32} {t : Store}
      (answered : (b.word "to_host_string" [.i32] [.i32 v]).run s = some (.ok buffer, t)) :
      LiftsText b v s ((t.host.take buffer.toInt32).1.map fun bytes => .text (Utf8.decodeLossy bytes))
        { t with host := (t.host.take buffer.toInt32).2 }

theorem liftText_ends {v : UInt32} {s s' : Store} {r : Except Error Value}
    (ended : (b.liftText v).run s = some (r, s')) : b.LiftsText v s r s' := by
  rcases Guest.run_bind_eq_some ended with ⟨e, failed, rfl⟩ | ⟨buffer, t, answered, ended⟩
  · exact .refused failed
  · have copied := LiftsText.copied answered
    have taken : (onHost fun h => h.take buffer.toInt32).run t =
        some (.ok (t.host.take buffer.toInt32).1, { t with host := (t.host.take buffer.toInt32).2 }) := rfl
    rw [Guest.run_bind, taken, Option.bind_some] at ended
    generalize (t.host.take buffer.toInt32).1 = bytes at copied ended
    cases bytes with
    | ok bytes =>
        cases ended
        exact copied
    | error e =>
        cases ended
        exact copied

/-- How a call ends: its entry is none, its arguments cannot be packed, or its run ends and
what it comes to is what the run's end comes to. -/
inductive Ends (b : Boundary) (func : Nat) (args : List Value) (s : Store) :
    Except Error Returned → Store → Prop
  | untyped (other : s.hasType func entryType = false) :
      Ends b func args s (.error (.missingExport entryName)) s
  | unpacked {e : Error} {s' : Store} (packs : (b.pack args).run s = some (.error e, s')) :
      Ends b func args s (.error e) s'
  | ran {packed : UInt32} {t u s' : Store} {end_ : Except Failure (List Val)} {r : Except Error Returned}
      (packs : (b.pack args).run s = some (.ok packed, t))
      (runs : Machine.invoke b.env b.fuel t func [.i32 packed] = some (end_, u))
      (concludes : (b.conclude end_).run u = some (r, s')) (typed : s.hasType func entryType = true) :
      Ends b func args s r s'

theorem call_ends {b : Boundary} {func : Nat} {args : List Value} {s s' : Store}
    {r : Except Error Returned} (ended : (b.call func args).run s = some (r, s')) :
    b.Ends func args s r s' := by
  rw [call, Guest.run_bind, show (get : Guest Store).run s = some (.ok s, s) from rfl,
    Option.bind_some] at ended
  dsimp only at ended
  split at ended
  · next typed =>
      rcases Guest.run_bind_eq_some ended with ⟨e, packs, rfl⟩ | ⟨packed, t, packs, ended⟩
      · exact .unpacked packs
      · rcases Guest.run_bind_eq_some ended with ⟨e, ran, rfl⟩ | ⟨end_, u, ran, concludes⟩
        · obtain ⟨⟨_, _⟩, _, same⟩ := Option.bind_eq_some_iff.mp ran
          cases same
        · obtain ⟨⟨_, _⟩, runs, same⟩ := Option.bind_eq_some_iff.mp ran
          cases same
          exact .ran packs runs concludes typed
  · next other =>
      cases ended
      exact .untyped (Bool.eq_false_iff.mpr other)

variable (h : Session.Lasting b.env R)

include h

theorem lowerText_keeps (text : String) : Keeps R (b.lowerText text) := by
  refine .bind h.toLasting (storeBuffer_keeps fun _ _ _ stored => h.insert stored) fun buffer => ?_
  refine .bind h.toLasting (.tryCatch h.toLasting ?_ fun e => .pure h.toLasting _) fun boxed => ?_
  · exact .bind h.toLasting (word_keeps h.toLasting _ _ _) fun r => .pure h.toLasting _
  · refine .bind h.toLasting (onHost_keeps fun s => h.take s _) fun _ => ?_
    split
    · exact .pure h.toLasting _
    · exact .throw h.toLasting _

theorem liftText_keeps (r : UInt32) : Keeps R (b.liftText r) := by
  refine .bind h.toLasting (word_keeps h.toLasting _ _ _) fun buffer => ?_
  refine .bind h.toLasting (onHost_keeps fun s => h.take s _) fun bytes => ?_
  split
  · exact .pure h.toLasting _
  · exact .throw h.toLasting _

theorem keeps_congruence : Congruence (fun x _ => Keeps R x) b b where
  pure := .pure h.toLasting
  throw _ := .throw h.toLasting _
  bind := .bind h.toLasting
  helper _ := helper_keeps h.toLasting _ _ _
  lowerText := lowerText_keeps h
  liftText := liftText_keeps h

theorem pack_keeps (args : List Value) : Keeps R (b.pack args) := (keeps_congruence h).pack args

omit h in
/-- A call whose arguments were packed goes on with what the entry's run comes to. -/
theorem call_run {entry : Nat} {args : List Value} {packed : UInt32} {s s₁ s₂ : Store}
    {r : Except Failure (List Val)} (typed : s.hasType entry entryType = true)
    (packs : (b.pack args).run s = some (.ok packed, s₁))
    (runs : Machine.invoke b.env b.fuel s₁ entry [.i32 packed] = some (r, s₂)) :
    (b.call entry args).run s = (b.conclude r).run s₂ := by
  have ran : (b.invoke entry [.i32 packed]).run s₁ = some (.ok r, s₂) := by
    change (Machine.invoke b.env b.fuel s₁ entry [.i32 packed]).bind _ = _
    rw [runs]
    rfl
  rw [call, run_bind]
  change (if s.hasType entry entryType then _ else _ : Guest Returned).run s = _
  rw [if_pos typed, run_bind, packs]
  change (b.invoke _ _ >>= _ : Guest Returned).run s₁ = _
  rw [run_bind, ran]
  rfl

omit h in
/-- A call whose arguments are never packed never ends. -/
theorem call_stuck {entry : Nat} {args : List Value} {s : Store} (typed : s.hasType entry entryType = true)
    (packs : (b.pack args).run s = none) : (b.call entry args).run s = none := by
  rw [call, run_bind]
  change (if s.hasType entry entryType then _ else _ : Guest Returned).run s = none
  rw [if_pos typed, run_bind, packs, Option.bind_none]

theorem conclude_keeps (r : Except Failure (List Val)) : Keeps R (b.conclude r) :=
  (keeps_congruence h).conclude (.throw h.toLasting) r

/-- A call keeps what guest code and the host's buffers keep, whatever it answers. -/
theorem call_keeps (entry : Nat) (args : List Value) : Keeps R (b.call entry args) := by
  refine .bind h.toLasting (.get h.toLasting) fun s => ?_
  split
  · refine .bind h.toLasting (pack_keeps h args) fun packed => ?_
    exact .bind h.toLasting (invoke_keeps h.toLasting _ _) fun r => conclude_keeps h r
  · exact .throw h.toLasting _

end Boundary

namespace Session

variable {env : Environment} {R : Store → Store → Prop}

/-- How bringing a payload to life goes: it is refused, or its instance is complete at once,
or once its start function has returned, unless that fails. -/
inductive Launches (env : Environment) (fuel : Nat) (links : Links) (s : Store) (payload : Array UInt8) :
    Except Error Nat → Store → Prop
  | refused {e : Error} {s' : Store} (made : s.instantiate links payload = (.error e, s')) :
      Launches env fuel links s payload (.error e) s'
  | still {inst : Nat} {t : Store} (made : s.instantiate links payload = (.ok ⟨inst, none⟩, t)) :
      Launches env fuel links s payload (.ok inst) (t.mapHost Host.addInstance)
  | started {inst start : Nat} {t u : Store} {results : List Val}
      (made : s.instantiate links payload = (.ok ⟨inst, some start⟩, t))
      (ran : invoke env fuel t start [] = some (.ok results, u)) :
      Launches env fuel links s payload (.ok inst) (u.mapHost Host.addInstance)
  | failed {inst start : Nat} {t u : Store} {e : Failure}
      (made : s.instantiate links payload = (.ok ⟨inst, some start⟩, t))
      (ran : invoke env fuel t start [] = some (.error e, u)) :
      Launches env fuel links s payload (.error (.instantiate e.text)) u

theorem launch_ends {fuel : Nat} {links : Links} {s s' : Store} {payload : Array UInt8}
    {r : Except Error Nat} (ended : launch env fuel links s payload = some (r, s')) :
    Launches env fuel links s payload r s' := by
  unfold launch at ended
  split at ended
  · next made =>
      cases ended
      exact .refused made
  · next made =>
      cases ended
      exact .still made
  · next made =>
      split at ended
      · cases ended
      · next ran =>
          cases ended
          exact .started made ran
      · next ran =>
          cases ended
          exact .failed made ran

/-- Bringing a payload to life keeps what guest code keeps, whether or not it succeeds, and
counts the instance if it does. -/
theorem launch_keeps (h : Machine.Lasting env R) (counts : ∀ s : Store, R s (s.mapHost Host.addInstance))
    {fuel : Nat} {links : Links} {s s' : Store} {payload : Array UInt8} {r : Except Error Nat}
    (agree : ∀ complete, env.links = some complete → complete = links)
    (ended : launch env fuel links s payload = some (r, s')) : R s s' := by
  have begun := h.instantiate s payload agree
  cases launch_ends ended with
  | refused made => rwa [made] at begun
  | still made =>
      rw [made] at begun
      exact h.trans begun (counts _)
  | started made ran =>
      rw [made] at begun
      exact h.trans begun (h.trans (h.invoke ran) (counts _))
  | failed made ran =>
      rw [made] at begun
      exact h.trans begun (h.invoke ran)

/-- How loading a script goes: its source is rejected, its module cannot be brought to life,
has no entry, or is an instance with an entry. -/
inductive Loads (fuel : Nat) (s : Session) (source : Array UInt8) :
    Except Error (Entry × Option String) → Session → Prop
  | rejected {e : Error} {host : Host}
      (compiled : s.host.compile s.env.compiler (.script source s.env.options) s.format = (.error e, host)) :
      Loads fuel s source (.error e) { s with store := { s.store with host } }
  | failed {d : Decoded} {host : Host} {e : Error} {store : Store}
      (compiled : s.host.compile s.env.compiler (.script source s.env.options) s.format = (.ok d, host))
      (launched : launch s.env fuel (s.env.links.getD .empty) { s.store with host } d.payload =
        some (.error e, store)) :
      Loads fuel s source (.error e) { s with store }
  | entryless {d : Decoded} {host : Host} {inst : Nat} {store : Store}
      (compiled : s.host.compile s.env.compiler (.script source s.env.options) s.format = (.ok d, host))
      (launched : launch s.env fuel (s.env.links.getD .empty) { s.store with host } d.payload =
        some (.ok inst, store))
      (lacks : store.exportedFunc? inst entryName = none) :
      Loads fuel s source (.error (.missingExport entryName)) { s with store }
  | loaded {d : Decoded} {host : Host} {inst func support : Nat} {store : Store}
      (compiled : s.host.compile s.env.compiler (.script source s.env.options) s.format = (.ok d, host))
      (launched : launch s.env fuel (s.env.links.getD .empty) { s.store with host } d.payload =
        some (.ok inst, store))
      (entry : store.exportedFunc? inst entryName = some func)
      (helpers : support =
        if (store.export? inst "any_array_create").isSome then inst else s.support.getD inst) :
      Loads fuel s source (.ok (⟨s.id, inst, support, func⟩, d.listing))
        { s with store, sourceMap := d.sourceMap }

theorem load_ends {fuel : Nat} {s s' : Session} {source : Array UInt8}
    {r : Except Error (Entry × Option String)} (ended : s.load fuel source = some (r, s')) :
    Loads fuel s source r s' := by
  unfold load at ended
  dsimp only at ended
  split at ended
  · next refused =>
      cases ended
      exact .rejected (Prod.ext refused rfl)
  · next decoded =>
      split at ended
      · cases ended
      · next launched =>
          cases ended
          exact .failed (Prod.ext decoded rfl) launched
      · next launched =>
          split at ended
          · next lacks =>
              cases ended
              exact .entryless (Prod.ext decoded rfl) launched lacks
          · next entry =>
              cases ended
              exact .loaded (Prod.ext decoded rfl) launched entry rfl

/-- A session's modules are linked against the one set of definitions that guests' loads use. -/
theorem links_agree (env : Environment) :
    ∀ complete, env.links = some complete → complete = env.links.getD .empty := by
  rintro complete same
  rw [same]
  rfl

/-- Loading keeps what guest code keeps, if nothing the host records matters to it. -/
theorem load_keeps {R : Store → Store → Prop} {fuel : Nat} {s s' : Session} {source : Array UInt8}
    {r : Except Error (Entry × Option String)} (h : Machine.Lasting s.env R)
    (hosts : ∀ s host, R s { s with host }) (loaded : s.load fuel source = some (r, s')) :
    R s.store s'.store := by
  cases load_ends loaded with
  | rejected => exact hosts _ _
  | failed _ launched | entryless _ launched | loaded _ launched =>
      exact h.trans (hosts _ _) (launch_keeps h (fun s => hosts s _) (links_agree s.env) launched)

/-- A session calls what it loaded. -/
theorem call_own {s : Session} {e : Entry} (own : e.session = s.id) (fuel : Nat) (args : List Value) :
    s.call fuel e args = (((⟨s.env, fuel, e.support⟩ : Boundary).call e.func args).run s.store).map
      fun (r, store) => (r, { s with store }) :=
  if_pos own

theorem call_store_keeps {R : Store → Store → Prop} {fuel : Nat} {s s' : Session} {e : Entry}
    {args : List Value} {r : Except Error Returned} (h : Session.Lasting s.env R)
    (called : s.call fuel e args = some (r, s')) : R s.store s'.store := by
  unfold call at called
  split at called
  · obtain ⟨⟨r', store⟩, ended, same⟩ := Option.map_eq_some_iff.mp called
    cases same
    exact Boundary.call_keeps (b := ⟨s.env, fuel, e.support⟩) h e.func args ended
  · cases called
    exact h.refl _

/-- An open session: one without a support module, or one whose support module was compiled
and brought to life while nothing could be loaded. -/
inductive Opened (fuel id : Nat) (compiler : Compiler) (config : Config) : Session → Prop
  | alone (standalone : config.options.standalone = true) :
      Opened fuel id compiler config (bare id compiler config)
  | shared {d : Decoded} {host : Host} {inst : Nat} {store : Store} {links : Links}
      (shares : config.options.standalone = false)
      (complete : (bare id compiler config).env.links = some links)
      (compiled : (bare id compiler config).store.host.compile compiler
        (.support config.options.optimize) config.format = (.ok d, host))
      (launched : launch ⟨compiler, config.options, none⟩ fuel links
        { (bare id compiler config).store with host } d.payload = some (.ok inst, store)) :
      Opened fuel id compiler config
        { bare id compiler config with
          env := ⟨compiler, config.options, some (linkInstance links (store.instances[inst]?.getD {}))⟩
          store
          support := some inst
          supportListing := d.listing }

theorem openWith_ends {fuel id : Nat} {compiler : Compiler} {config : Config} {s : Session} {host : Host}
    (ended : openWith fuel id compiler config = some (.ok s, host)) :
    Opened fuel id compiler config s ∧ s.host = host := by
  rw [openWith] at ended
  split at ended
  · next standalone =>
      cases ended
      exact ⟨.alone standalone, rfl⟩
  · next shares =>
      rw [withSupport] at ended
      dsimp only at ended
      split at ended
      · cases ended
      · next decoded =>
          split at ended
          · cases ended
          · cases ended
          · next launched =>
              cases ended
              exact ⟨.shared (Bool.eq_false_iff.mpr shares) rfl (Prod.ext decoded rfl) launched, rfl⟩

end Session

end GuestHost
