import GuestHost.Compiler.Builtin

/-! What the built-in compiler answers for the bytes of a valid module. -/

namespace GuestHost.Builtin

open Wasm

variable {bytes : List UInt8} {m : Module}

theorem payload_module (valid : Module.ofBytes? bytes = some m) :
    Payload.ofBytes? bytes = some (.module m) := by
  rw [Payload.ofBytes?, valid, if_neg]
  · rfl
  · rintro rfl
    have none : Module.ofBytes? emptyComponent = none := by decide +kernel
    rw [none] at valid
    cases valid

theorem validates_module (valid : Module.ofBytes? bytes = some m) : tools.validates bytes = true :=
  congrArg Option.isSome (payload_module valid)

theorem parse_module (valid : Module.ofBytes? bytes = some m) : tools.parse bytes = Listing.parts m :=
  congrArg (fun p => (Option.map parts p).getD [none]) (payload_module valid)

theorem Toolchain.answer_script {ω : Type} (t : Toolchain ω) (support : List UInt8) (source : Array UInt8)
    (options : Options) :
    (t.compiler support).answer (.script source options) = .ok (t.answer (t.assemble source)) :=
  rfl

theorem Toolchain.answer_valid {ω : Type} {t : Toolchain ω} (valid : t.validates bytes = true) :
    t.answer (some bytes) = { payload := bytes.toArray, listing := t.listing bytes } :=
  if_pos valid

/-- Nothing is wrong with a valid module, and it is the payload itself. -/
theorem answer_module (valid : Module.ofBytes? bytes = some m) :
    (answer (some bytes)).error = none ∧ (answer (some bytes)).payload = bytes.toArray := by
  rw [answer, Toolchain.answer_valid (validates_module valid)]
  exact ⟨rfl, rfl⟩

end GuestHost.Builtin
