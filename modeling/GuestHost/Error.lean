import GuestHost.Value

/-! Every way a request to the host can fail, and the one wording of each. -/

namespace GuestHost

/-- A buffer handle, as guests pass it. -/
abbrev Handle := Int32

/-- The cause of a failed request. -/
inductive Error
  /-- The compiler rejected the source. -/
  | compile (text : String)
  /-- No definition has the imported name. -/
  | link (name : String)
  /-- The payload is not a valid module. -/
  | validation (text : String)
  /-- The module could not be brought to life. -/
  | instantiate (text : String)
  /-- The module lacks an export of this name and type. -/
  | missingExport (name : String)
  /-- The guest raised this value. -/
  | runtime (value : Value)
  /-- A capability called by the guest failed. -/
  | host (cause : Error)
  | trap (text : String)
  | unsupportedTag (name : String)
  | invalidBuffer (handle : Handle)
  | bufferIndex (handle : Handle) (index : Int32)
  | invalidLength (length : Int32)
  | conversion (text : String)
  | foreignEntry
  | setup (text : String)
  | internal (text : String)
  deriving DecidableEq, Repr

namespace Error

/-- The wording of an error. -/
def message : Error → String
  | compile text => text
  | link name => "unresolved import `" ++ name ++ "`"
  | validation text => "invalid module: " ++ text
  | instantiate text => "instantiation failed: " ++ text
  | missingExport name =>
    "module does not export `" ++ name ++ "` with the expected signature"
  | runtime value => value.display
  | host cause => "host capability failed: " ++ cause.message
  | trap text => "guest trapped: " ++ text
  | unsupportedTag name => "unsupported value tag `" ++ name ++ "`"
  | invalidBuffer handle => "invalid buffer handle " ++ toString handle.toInt
  | bufferIndex handle index =>
    "buffer " ++ toString handle.toInt ++ " has no byte at index " ++ toString index.toInt
  | invalidLength length => "invalid buffer length " ++ toString length.toInt
  | conversion text => "cannot convert `" ++ text ++ "` to an integer"
  | foreignEntry => "entry point belongs to a different session"
  | setup text => "engine setup failed: " ++ text
  | internal text => "background task failed: " ++ text

end Error

/-- The wording of a raised guest value that nobody has lifted: its reference in
hexadecimal, as an unsigned word. -/
def thrownMessage (v : Int32) : String :=
  "guest raised error value 0x" ++ String.ofList (Nat.toDigits 16 v.toUInt32.toNat)

end GuestHost
