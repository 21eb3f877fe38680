import GuestHost.Proofs.Session.Crossing
import GuestHost.Proofs.Support.Copying

/-! Passing arguments to the guest leaves nothing of the buffers that it needs. Each of them is
gone again when it has been copied, whether or not the guest could box it. -/

namespace GuestHost

open Machine
open Support (Place Space Call Standing)

namespace Guest

variable {α β : Type} {p : Place}

/-- However the work ends, the instance still stands and the same buffers are live. -/
def Tidy (p : Place) (work : Guest α) : Prop :=
  ∀ ⦃s s' r⦄, Standing p s → work.run s = some (r, s') →
    Standing p s' ∧ s.host.buffers.Kept s'.host.buffers

namespace Tidy

theorem pure (a : α) : Tidy p (Pure.pure a) := by
  intro s s' r standing ended
  cases ended
  exact ⟨standing, .refl _⟩

theorem throw (e : Error) : Tidy p (MonadExcept.throw e : Guest α) := by
  intro s s' r standing ended
  cases ended
  exact ⟨standing, .refl _⟩

theorem bind {work : Guest α} {rest : α → Guest β} (h : Tidy p work) (h' : ∀ a, Tidy p (rest a)) :
    Tidy p (work >>= rest) := by
  intro s s' r standing ended
  rcases run_bind_eq_some ended with ⟨e, first, rfl⟩ | ⟨a, s₁, first, second⟩
  · exact h standing first
  · obtain ⟨standing, kept⟩ := h standing first
    obtain ⟨standing, kept'⟩ := h' a standing second
    exact ⟨standing, kept.trans kept'⟩

end Tidy

end Guest

namespace Boundary

open Guest

variable {env : Environment} {p : Place} {fuel : Nat} {s s' : Store}

/-! ## Helpers -/

/-- A helper that does not copy a string to the host leaves the buffers as they are. -/
theorem helper_buffers {c : Call} {r : Except Error (List Val)} (others : ∀ v, c ≠ .toHostString v)
    (standing : Standing p s)
    (ended : ((p.boundary env fuel).helper c.name c.type c.args).run s = some (r, s')) :
    Standing p s' ∧ s'.host.buffers = s.host.buffers := by
  obtain ⟨x, owns⟩ := standing.owns
  have left := (helper_ends standing.toStands owns ended).2
  have lasts := helper_keeps (b := p.boundary env fuel) (Support.lasts_lasting env).toLasting _ _ _ ended
  refine ⟨lasts p standing, ?_⟩
  rw [left, owns.buffers]
  exact Call.spares others x

theorem helper_tidy (c : Call) (others : ∀ v, c ≠ .toHostString v) :
    Tidy p ((p.boundary env fuel).helper c.name c.type c.args) := by
  intro s s' r standing ended
  obtain ⟨standing, same⟩ := helper_buffers others standing ended
  exact ⟨standing, congrArg Buffers.live same⟩

theorem word_buffers {c : Call} {work : Support.Work UInt32} {r : Except Error UInt32}
    (gives : c.work = work.giving fun w => [.i32 w]) (results : c.type.results = [.i32])
    (others : ∀ v, c ≠ .toHostString v) (standing : Standing p s)
    (ended : ((p.boundary env fuel).word c.name c.type.params c.args).run s = some (r, s')) :
    Standing p s' ∧ s'.host.buffers = s.host.buffers := by
  obtain ⟨x, owns⟩ := standing.owns
  have left := (word_ends standing.toStands owns gives results ended).2
  have lasts := word_keeps (b := p.boundary env fuel) (Support.lasts_lasting env).toLasting _ _ _ ended
  refine ⟨lasts p standing, ?_⟩
  have spares := Call.spares others x
  rw [gives] at spares
  rw [left, owns.buffers]
  exact spares

theorem asks_tidy {name : String} {type : Wasm.FuncType} {args : List Val} (asks : Asks name type args) :
    Tidy p ((p.boundary env fuel).helper name type args) := by
  cases asks with
  | boxInteger n => exact helper_tidy (.boxInteger n) (by simp)
  | boxNumber x => exact helper_tidy (.boxNumber x) (by simp)
  | arrayCreate length => exact helper_tidy (.arrayCreate length) (by simp)
  | arraySet array index v => exact helper_tidy (.arraySet array index v) (by simp)
  | arraySize array => exact helper_tidy (.arraySize array) (by simp)
  | arrayGet array index => exact helper_tidy (.arrayGet array index) (by simp)
  | getTypeNum v => exact helper_tidy (.getTypeNum v) (by simp)
  | toHostInteger v => exact helper_tidy (.toHostInteger v) (by simp)
  | toHostNumber v => exact helper_tidy (.toHostNumber v) (by simp)

/-! ## Texts -/

/-- Taking a buffer that was stored before undoes storing it, whatever has happened since to all
but the buffers. -/
theorem take_kept {bytes : ByteArray} {buffer : Handle} {h h' h'' : Host}
    (stored : h.insert bytes = some (buffer, h')) (same : h''.buffers = h'.buffers) :
    h.buffers.Kept (h''.take buffer).2.buffers := by
  obtain ⟨⟨k, t⟩, inserted, made⟩ := Option.map_eq_some_iff.mp stored
  cases made
  obtain ⟨free, rfl, rfl⟩ := Buffers.insert_eq_some.mp inserted
  have passing : (h''.take h.buffers.fresh).2.buffers = h.buffers.passing bytes := by
    change (h''.buffers.take h.buffers.fresh).2 = _
    rw [same]
    simp [Buffers.take, Buffers.passing]
  rw [passing]
  exact .passing free bytes

/-- The buffer of a text that is boxed is taken again even if boxing fails. -/
theorem lowerText_tidy (text : String) : Tidy p ((p.boundary env fuel).lowerText text) := by
  intro s s' r standing ended
  obtain ⟨buffer, host, t, stored, boxing, rfl⟩ := lowerText_ends ended
  obtain ⟨standing_t, same⟩ := word_buffers (c := .boxString buffer.toUInt32) rfl rfl
    (by simp) (standing.withHost host) boxing
  exact ⟨standing_t.withHost _, take_kept stored same⟩

/-! ## Arguments -/

theorem tidy_lowering : Lowering (fun x _ => Tidy p x) (p.boundary env fuel) (p.boundary env fuel) where
  pure := .pure
  throw _ := .throw _
  bind := .bind
  helper := asks_tidy
  lowerText := lowerText_tidy

theorem pack_tidy (args : List Value) : Tidy p ((p.boundary env fuel).pack args) :=
  tidy_lowering.pack args

end Boundary

end GuestHost
