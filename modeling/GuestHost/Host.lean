import GuestHost.Buffers
import GuestHost.Compiler.Output

/-! The host's side of a session: buffers, counters, and a trace of everything that
leaves the session or asks something of the world around it. -/

namespace GuestHost

/-- The two streams a guest can write to. -/
inductive Stream
  | output
  | errors
  deriving DecidableEq, Repr

/-- What comes of a write to a stream: it goes through, or it breaks off after a number
of bytes, with a text that says why. -/
inductive Written
  | whole
  | broken (count : Nat) (reason : String)
  deriving DecidableEq, Repr

/-- Where a session's streams lead. What comes of a write may depend on how many there
were before it. -/
structure Outlet where
  answerAt : Nat → Stream → Array UInt8 → Written := fun _ _ _ => .whole

/-- Something a session did, in the order it did it. -/
inductive Event
  /-- The compiler was asked. -/
  | requested (r : Request)
  /-- The compiler's result was asked. -/
  | touched (t : Touch)
  | wrote (stream : Stream) (bytes : Array UInt8)
  /-- A capability made a remark. -/
  | noted (text : String)
  /-- The guest asked for a module from a buffer, which held these bytes if it was live. -/
  | loadIssued (buffer : Handle) (source : Option (Array UInt8))
  /-- The guest received a module's entry, the function at this address. -/
  | loadReturned (func : Nat)
  | loadFailed (cause : Error)
  deriving DecidableEq, Repr

/-- What a capability may record. All else in a trace is the session's own account. -/
def Event.isRemark : Event → Bool
  | .wrote _ _ | .noted _ => true
  | _ => false

/-- A request made of the compiler. -/
def Event.isRequest : Event → Bool
  | .requested _ => true
  | _ => false

/-- Buffers, the number of module instances, the number of loads that returned an
entry to the guest, the number of writes to the outlet, and the trace. -/
structure Host where
  buffers : Buffers := .empty
  instances : Nat := 0
  nestedLoads : Nat := 0
  writes : Nat := 0
  trace : Array Event := #[]

namespace Host

def record (h : Host) (e : Event) : Host := { h with trace := h.trace.push e }

/-- Removes a buffer and returns its bytes. -/
def take (h : Host) (buffer : Handle) : Except Error (Array UInt8) × Host :=
  let (r, buffers) := h.buffers.take buffer
  (r.map ByteArray.data, { h with buffers })

/-- Stores bytes in a fresh buffer, if the search for a handle ends. -/
def insert (h : Host) (bytes : ByteArray) : Option (Handle × Host) :=
  (h.buffers.insert bytes).map fun (buffer, buffers) => (buffer, { h with buffers })

/-- Writes bytes to a stream. What was put out before the stream broke off stays so. -/
def write (h : Host) (o : Outlet) (s : Stream) (bytes : Array UInt8) : Except String Unit × Host :=
  let written := o.answerAt h.writes s bytes
  let h := { h with writes := h.writes + 1 }
  match written with
  | .whole => (.ok (), h.record (.wrote s bytes))
  | .broken count reason => (.error reason, h.record (.wrote s (bytes.extract 0 count)))

/-- Counts one more module instance. -/
def addInstance (h : Host) : Host := { h with instances := h.instances + 1 }

/-- Counts one more load that returned the function at an address to the guest. -/
def addNestedLoad (h : Host) (func : Nat) : Host :=
  { h with nestedLoads := h.nestedLoads + 1 }.record (.loadReturned func)

/-- The number of requests made so far. -/
def requests (h : Host) : Nat := h.trace.countP Event.isRequest

/-- Makes a request of a compiler and consumes its result. -/
def compile (h : Host) (c : Compiler) (r : Request) (format : Option ListingFormat) :
    Except Error Decoded × Host :=
  let answer := c.answerAt h.requests r
  let h := h.record (.requested r)
  match answer with
  | .error text => (.error (.internal text), h)
  | .ok output =>
    let (decoded, touches) := output.consume format
    (decoded, touches.foldl (fun h t => h.record (.touched t)) h)

end Host

end GuestHost
