import GuestHost.Machine.Step

/-! What loads fail with before the start function of the module runs. -/

namespace GuestHost

/-- A compiler's result is refused, or the compiler broke down; there is no third way. -/
theorem Host.compile_error {h : Host} {c : Compiler} {r : Request} {format : Option ListingFormat}
    {e : Error} (refused : (h.compile c r format).1 = .error e) :
    (∃ text, e = .compile text) ∨ ∃ text, e = .internal text := by
  unfold compile at refused
  dsimp only at refused
  split at refused
  · cases refused
    exact .inr ⟨_, rfl⟩
  · next o _ =>
      obtain ⟨error, payload, listing, sourceMap⟩ := o
      cases error with
      | some text =>
          cases refused
          exact .inl ⟨text, rfl⟩
      | none => cases format <;> cases refused

theorem Host.take_error {h : Host} {buffer : Handle} {e : Error}
    (refused : (h.take buffer).1 = .error e) : e = .invalidBuffer buffer := by
  cases found : h.buffers.live[buffer]? with
  | none =>
      rw [take, Buffers.take, found] at refused
      cases refused
      rfl
  | some bytes =>
      rw [take, Buffers.take, found] at refused
      cases refused

/-- A load can fail in this way before its module has run. -/
def Error.stopsLoad : Error → Bool
  | .compile _ | .validation _ | .link _ | .instantiate _ | .invalidBuffer _ | .internal _ => true
  | _ => false

theorem Host.compile_stopsLoad {h : Host} {c : Compiler} {r : Request} {format : Option ListingFormat}
    {e : Error} (refused : (h.compile c r format).1 = .error e) : e.stopsLoad = true := by
  rcases compile_error refused with ⟨text, rfl⟩ | ⟨text, rfl⟩
  · rfl
  · rfl

namespace Machine

variable {s s' : Store} {links : Links} {e : Error}

theorem resolve_stopsLoad {m : Wasm.Module} (refused : s.resolve links m = .error e) :
    e.stopsLoad = true := by
  unfold Store.resolve at refused
  split at refused
  · cases refused
    rfl
  · dsimp only at refused
    split at refused
    · cases refused
      rfl
    · cases refused

/-- A payload that is not brought to life is refused before anything is allocated, or what it
allocates or copies is more than there is room for. -/
theorem instantiate_error {payload : Array UInt8}
    (refused : s.instantiate links payload = (.error e, s')) :
    (e.stopsLoad = true ∧ s' = s) ∨ ∃ t : Trap, e = .instantiate t.message := by
  unfold Store.instantiate at refused
  split at refused
  · cases refused
    exact .inl ⟨rfl, rfl⟩
  · split at refused
    · cases refused
      exact .inl ⟨rfl, rfl⟩
    · split at refused
      · next unresolved =>
          cases refused
          exact .inl ⟨resolve_stopsLoad unresolved, rfl⟩
      · split at refused
        · cases refused
          exact .inr ⟨_, rfl⟩
        · split at refused
          · cases refused
            exact .inr ⟨_, rfl⟩
          · cases refused

theorem instantiate_stopsLoad {payload : Array UInt8}
    (refused : s.instantiate links payload = (.error e, s')) : e.stopsLoad = true := by
  rcases instantiate_error refused with ⟨early, -⟩ | ⟨t, rfl⟩
  · exact early
  · rfl

theorem beginLoad_stopsLoad {env : Environment} {buffer : Handle}
    (refused : beginLoad env s buffer = (.error e, s')) : e.stopsLoad = true := by
  unfold beginLoad at refused
  dsimp only at refused
  split at refused
  · next missing =>
      cases refused
      rw [Host.take_error missing]
      rfl
  · cases refused
    rfl
  · split at refused
    · next rejected =>
        cases refused
        exact Host.compile_stopsLoad rejected
    · exact instantiate_stopsLoad refused

end Machine

end GuestHost
