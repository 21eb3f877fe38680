import GuestHost.Capability.Basic

/-! What running a function of the host comes to. Of the host it leaves buffers and writes as
the function left them and adds remarks to the record; nothing else changes. -/

namespace GuestHost.Capability

open Machine (Val Failure)

variable {c : Capability} {f : List Val → Host → Response} {args : List Val} {h h' : Host}
  {r : Except Failure (List Val)}

/-- The host after a function was run on it that left a host of its own. -/
def hostAfter (h left : Host) : Host :=
  { h with
    buffers := left.buffers
    writes := left.writes
    trace := h.trace ++ left.trace.filter Event.isRemark }

theorem run_eq (c : Capability) (f : List Val → Host → Response) (args : List Val) (h : Host) :
    c.run f args h =
      (f args { h with trace := #[] }).map fun (r, left) => (r.bind c.checked, hostAfter h left) := rfl

theorem run_eq_some : c.run f args h = some (r, h') ↔
    ∃ r₀ left, f args { h with trace := #[] } = some (r₀, left) ∧ r = r₀.bind c.checked ∧
      h' = hostAfter h left := by
  rw [run_eq, Option.map_eq_some_iff]
  constructor
  · rintro ⟨⟨r₀, left⟩, ran, same⟩
    cases same
    exact ⟨r₀, left, ran, rfl, rfl⟩
  · rintro ⟨r₀, left, ran, rfl, rfl⟩
    exact ⟨(r₀, left), ran, rfl⟩

/-- What a function adds to the record are remarks. -/
theorem run_trace (ran : c.run f args h = some (r, h')) :
    ∃ new : List Event, h'.trace = h.trace ++ new.toArray ∧ ∀ e ∈ new, e.isRemark = true := by
  obtain ⟨r₀, left, -, -, rfl⟩ := run_eq_some.mp ran
  refine ⟨(left.trace.filter Event.isRemark).toList, rfl, fun e among => ?_⟩
  exact (Array.mem_filter.mp (Array.mem_toList_iff.mp among)).2

end GuestHost.Capability
