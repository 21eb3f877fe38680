import GuestHost.Host
import GuestHost.Machine.Failure
import GuestHost.Machine.Val

/-! Capabilities: functions of the host that a module may import. -/

namespace GuestHost

open Machine Wasm

/-- What comes of a call of a host's function: results or a failure, and the host
afterwards. There is nothing if the call never returns. -/
abbrev Response := Option (Except Failure (List Val) × Host)

/-- What a capability does. Loading a module needs the machine itself; anything else is
a function of arguments and host. It has no memory of its own beside the host's, cannot
reach the store, and cannot call guest code. -/
inductive Action
  | load
  | run (f : List Val → Host → Response)

/-- An importable function with its signature. -/
structure Capability where
  params : List ValType
  results : List ValType
  /-- The guest may be suspended while the function is at work. -/
  suspending : Bool := false
  action : Action

namespace Capability

def type (c : Capability) : FuncType := ⟨c.params, c.results⟩

/-- A one-line summary of the signature. -/
def summary (c : Capability) : String :=
  let names (ts : List ValType) : String :=
    "[" ++ String.intercalate ", " (ts.map ValType.longName) ++ "]"
  "Capability \x7b params: " ++ names c.params ++ ", results: " ++ names c.results ++
    ", suspending: " ++ (if c.suspending then "true" else "false") ++ " \x7d"

/-- The complaint about results of other types than the signature has. -/
def badResults : Failure := .message "function attempted to return an incompatible value"

/-- Results as the signature wants them: values that were not given are null
references, and each must be of its type. -/
def checked (c : Capability) (vals : List Val) : Except Failure (List Val) :=
  let vals := vals ++ List.replicate (c.results.length - vals.length) (.ref none)
  if vals.map Val.type = c.results then .ok vals else .error badResults

/-- Runs an action on its arguments. The counts of instances and loads, and the account
of compilations, are out of its reach: of the host it leaves, the buffers and the count of
writes are kept, and its remarks follow the trace. -/
def run (c : Capability) (f : List Val → Host → Response) (args : List Val) : Host → Response
  | ⟨buffers, instances, nestedLoads, writes, trace⟩ =>
    (f args ⟨buffers, instances, nestedLoads, writes, #[]⟩).map fun (r, h) =>
      (r.bind c.checked,
        ⟨h.buffers, instances, nestedLoads, h.writes, trace ++ h.trace.filter Event.isRemark⟩)

/-- Arguments that do not fit the signature. -/
def badArguments (h : Host) : Response := some (.error (.trap .illTyped), h)

end Capability

end GuestHost
