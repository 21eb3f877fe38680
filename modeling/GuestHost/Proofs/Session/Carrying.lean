import GuestHost.Proofs.Machine.Blindness
import GuestHost.Proofs.Session.Guest

/-! Loads and calls are carried over by every map of hosts that runs of guest code, the
host's own use of its buffers and the compiler carry over: the same answers, and the same
session but for the host. -/

namespace GuestHost

open Machine

variable {F : Host → Host}

namespace Guest

variable {α β : Type}

/-- On a store with another host, other work answers alike and leaves the other host. -/
def Carried (F : Host → Host) (x x' : Guest α) : Prop :=
  ∀ s, x'.run (s.mapHost F) = (x.run s).map fun (r, s) => (r, s.mapHost F)

namespace Carried

theorem pure (a : α) : Carried F (Pure.pure a) (Pure.pure a : Guest α) := fun _ => rfl

theorem throw (e : Error) : Carried F (MonadExcept.throw e) (MonadExcept.throw e : Guest α) :=
  fun _ => rfl

theorem bind {x x' : Guest α} {f f' : α → Guest β} (hx : Carried F x x')
    (hf : ∀ a, Carried F (f a) (f' a)) : Carried F (x >>= f) (x' >>= f') := by
  intro s
  rw [run_bind, run_bind, hx s]
  cases x.run s with
  | none => rfl
  | some p =>
      obtain ⟨_ | a, s₁⟩ := p
      · rfl
      · exact hf a s₁

theorem tryCatch {x x' : Guest α} {f f' : Error → Guest α} (hx : Carried F x x')
    (hf : ∀ e, Carried F (f e) (f' e)) :
    Carried F (MonadExcept.tryCatch x f) (MonadExcept.tryCatch x' f') := by
  intro s
  change (x'.run (s.mapHost F)).bind _ = ((x.run s).bind _).map _
  rw [hx s]
  cases x.run s with
  | none => rfl
  | some p =>
      obtain ⟨e | a, s₁⟩ := p
      · exact hf e s₁
      · rfl

theorem lift {f f' : Store → Option (α × Store)}
    (h : ∀ s, f' (s.mapHost F) = (f s).map fun (a, s) => (a, s.mapHost F)) :
    Carried F (ExceptT.lift f) (ExceptT.lift f' : Guest α) := by
  intro s
  change (f' (s.mapHost F)).bind _ = ((f s).bind _).map _
  rw [h s]
  cases f s <;> rfl

theorem get_bind {f f' : Store → Guest α} (h : ∀ s, Carried F (f s) (f' (s.mapHost F))) :
    Carried F (MonadState.get >>= f) (MonadState.get >>= f') :=
  fun s => h s s

end Carried

end Guest

namespace Boundary

open Guest

variable {env env' : Environment} {fuel support : Nat} (h : Carries env env' F)

theorem onHost_carried {α : Type} {f : Host → α × Host} (hf : ∀ host, f (F host) = ((f host).1, F (f host).2)) :
    Carried F (onHost f) (onHost f) := by
  refine .lift fun s => ?_
  rw [Store.mapHost_host, hf]
  rfl

theorem storeBuffer_carried {bytes : ByteArray}
    (hf : ∀ host : Host, (F host).insert bytes = (host.insert bytes).map fun (k, host) => (k, F host)) :
    Carried F (storeBuffer bytes) (storeBuffer bytes) := by
  refine .lift fun s => ?_
  rw [Store.mapHost_host, hf, Option.map_map, Option.map_map]
  rfl

include h

theorem invoke_carried (func : Nat) (args : List Val) :
    Carried F (invoke ⟨env, fuel, support⟩ func args) (invoke ⟨env', fuel, support⟩ func args) :=
  .lift fun s => invoke_mapHost h fuel s func args

theorem helper_carried (name : String) (type : Wasm.FuncType) (args : List Val) :
    Carried F (helper ⟨env, fuel, support⟩ name type args) (helper ⟨env', fuel, support⟩ name type args) := by
  refine .get_bind fun s => ?_
  simp only [Store.mapHost_exportedFunc?, Store.mapHost_hasType]
  split
  · exact .throw _
  · refine .bind (invoke_carried h _ _) fun r => ?_
    split
    · exact .pure _
    · exact .throw _

theorem word_carried (name : String) (params : List Wasm.ValType) (args : List Val) :
    Carried F (word ⟨env, fuel, support⟩ name params args) (word ⟨env', fuel, support⟩ name params args) := by
  refine .bind (helper_carried h _ _ _) fun vals => ?_
  split
  · exact .pure _
  · exact .throw _

theorem lowerText_carried (text : String) :
    Carried F (lowerText ⟨env, fuel, support⟩ text) (lowerText ⟨env', fuel, support⟩ text) := by
  refine .bind (storeBuffer_carried fun host => h.insert host _) fun buffer => ?_
  refine .bind (.tryCatch (.bind (word_carried h _ _ _) fun r => .pure _) fun e => .pure _) fun boxed => ?_
  refine .bind (onHost_carried fun host => h.take host _) fun _ => ?_
  split
  · exact .pure _
  · exact .throw _

theorem liftText_carried (r : UInt32) :
    Carried F (liftText ⟨env, fuel, support⟩ r) (liftText ⟨env', fuel, support⟩ r) := by
  refine .bind (word_carried h _ _ _) fun buffer => ?_
  refine .bind (onHost_carried fun host => h.take host _) fun bytes => ?_
  split
  · exact .pure _
  · exact .throw _

theorem carried_congruence :
    Congruence (Carried F) ⟨env, fuel, support⟩ ⟨env', fuel, support⟩ where
  pure := .pure
  throw _ := .throw _
  bind := .bind
  helper _ := helper_carried h _ _ _
  lowerText := lowerText_carried h
  liftText := liftText_carried h

theorem call_carried (entry : Nat) (args : List Value) :
    Carried F (call ⟨env, fuel, support⟩ entry args) (call ⟨env', fuel, support⟩ entry args) := by
  refine .get_bind fun s => ?_
  by_cases typed : s.hasType entry entryType = true
  · rw [Store.mapHost_hasType, if_pos typed, if_pos typed]
    refine .bind ((carried_congruence h).pack args) fun packed => ?_
    exact .bind (invoke_carried h _ _) fun r => (carried_congruence h).conclude .throw r
  · rw [Store.mapHost_hasType, if_neg typed, if_neg typed]
    exact .throw _

end Boundary

namespace Session

/-- The session in other surroundings, with another host. -/
def moved (env : Environment) (F : Host → Host) (s : Session) : Session :=
  { s with env, store := s.store.mapHost F }

section

variable {env env' : Environment} (h : Carries env env' F)

include h

theorem launch_carried (fuel : Nat) (links : Links) (s : Store) (payload : Array UInt8) :
    launch env' fuel links (s.mapHost F) payload =
      (launch env fuel links s payload).map fun (r, s) => (r, s.mapHost F) := by
  have counted (s : Store) : (s.mapHost F).mapHost Host.addInstance = (s.mapHost Host.addInstance).mapHost F :=
    congrArg (fun host => ({ s with host } : Store)) (h.addInstance s.host)
  simp only [launch, instantiate_mapHost]
  generalize s.instantiate links payload = made
  obtain ⟨_ | ⟨inst, _ | start⟩, s⟩ := made
  · rfl
  · exact congrArg (fun s => some (Except.ok inst, s)) (counted s)
  · simp only [invoke_mapHost h]
    cases invoke env fuel s start [] with
    | none => rfl
    | some ended =>
        obtain ⟨_ | _, s⟩ := ended
        · rfl
        · exact congrArg (fun s => some (Except.ok inst, s)) (counted s)

end

variable {s : Session} {env' : Environment} (h : Carries s.env env' F)

include h

theorem load_carried (fuel : Nat) (source : Array UInt8) :
    (s.moved env' F).load fuel source =
      (s.load fuel source).map fun (r, t) => (r, t.moved env' F) := by
  simp only [load, moved, host, Store.mapHost_host, h.compile, h.options, h.links]
  generalize s.store.host.compile s.env.compiler (.script source s.env.options) s.format = compiled
  obtain ⟨_ | d, host⟩ := compiled
  · rfl
  · have launched : launch env' fuel (s.env.links.getD .empty) { s.store.mapHost F with host := F host }
        d.payload = _ := launch_carried h fuel _ { s.store with host } d.payload
    simp only [launched]
    generalize launch s.env fuel _ _ d.payload = ended
    obtain _ | ⟨_ | inst, store⟩ := ended
    · rfl
    · rfl
    · simp only [Option.map_some, Store.mapHost_exportedFunc?, Store.mapHost_export?]
      cases store.exportedFunc? inst entryName <;> rfl

theorem call_carried (fuel : Nat) (e : Entry) (args : List Value) :
    (s.moved env' F).call fuel e args =
      (s.call fuel e args).map fun (r, t) => (r, t.moved env' F) := by
  by_cases own : e.session = s.id
  · have called : ((⟨env', fuel, e.support⟩ : Boundary).call e.func args).run (s.store.mapHost F) = _ :=
      Boundary.call_carried h e.func args s.store
    rw [call, call, if_pos own, moved, if_pos own]
    dsimp only
    rw [called]
    cases ((⟨s.env, fuel, e.support⟩ : Boundary).call e.func args).run s.store <;> rfl
  · rw [call, call, if_neg own, moved, if_neg own]
    rfl

end Session

end GuestHost
