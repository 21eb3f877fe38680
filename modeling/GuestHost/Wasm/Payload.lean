import GuestHost.Wasm.Binary.Reader
import GuestHost.Wasm.Typing

/-! Payloads: bytes that hold a valid module, or an empty component, which can be
listed and passed on but not run. -/

namespace GuestHost.Wasm

/-- What the bytes of a payload hold. -/
inductive Payload
  | module (m : Module)
  | component

/-- The binary form of an empty component. -/
def emptyComponent : List UInt8 := [0x00, 0x61, 0x73, 0x6D, 0x0D, 0x00, 0x01, 0x00]

/-- The valid module that a byte list is the binary form of. A module with an operator that
`Operator` does not have counts as invalid. -/
def Module.ofBytes? (bytes : List UInt8) : Option Module :=
  (Binary.readModule bytes).filter Module.isValid

/-- Reads and checks a payload. -/
def Payload.ofBytes? (bytes : List UInt8) : Option Payload :=
  if bytes = emptyComponent then some .component
  else (Module.ofBytes? bytes).map .module

end GuestHost.Wasm
