import GuestHost.Capability.Basic
import GuestHost.Number.Reading
import GuestHost.Registry

/-! The capabilities every session starts from: loading modules, streams, numbers and
their texts, buffers, and raising errors. Those that take a text take it as a buffer
and consume the buffer before they look at it. -/

namespace GuestHost.Capability

open Machine Wasm

/-- Fails because of the host. -/
def hostError (e : Error) : Except Failure (List Val) := .error (.host e)

/-- A capability that consumes one buffer. -/
def consuming (results : List ValType)
    (f : Array UInt8 → Host → Except Failure (List Val) × Host) : Capability where
  params := [.i32]
  results
  action := .run fun args h =>
    match args with
    | [.i32 buffer] =>
      match h.take buffer.toInt32 with
      | (.ok bytes, h) => some (f bytes h)
      | (.error e, h) => some (hostError e, h)
    | _ => badArguments h

/-- Answers a handle to a fresh buffer. -/
def freshBuffer (h : Host) (bytes : ByteArray) : Response :=
  (h.insert bytes).map fun (buffer, h) => (.ok [.ofInt32 buffer], h)

/-- Loads a module from a buffer and returns its entry. -/
def load : Capability := ⟨[.i32], [.funcref], true, .load⟩

/-- Writes a buffer to a stream. The buffer is gone even if the stream breaks off. -/
def write (o : Outlet) (s : Stream) : Capability :=
  consuming [] fun bytes h =>
    match h.write o s bytes with
    | (.ok (), h) => (.ok [], h)
    | (.error reason, h) => (.error (.message reason), h)

/-- The number that a buffer's text names, or a NaN. -/
def toNumber : Capability :=
  consuming [.f64] fun bytes h => (.ok [.f64 (.ofBytes bytes)], h)

/-- The integer that a buffer's text names. -/
def toInteger : Capability :=
  consuming [.i64] fun bytes h =>
    match integerOfBytes? bytes with
    | some n => (.ok [.i64 n.toUInt64], h)
    | none => (hostError (.conversion (Utf8.decodeLossy bytes)), h)

/-- A buffer with the decimal text of an integer. -/
def integerText : Capability where
  params := [.i64]
  results := [.i32]
  action := .run fun args h =>
    match args with
    | [.i64 n] => freshBuffer h ⟨Utf8.encode (toString n.toInt64.toInt)⟩
    | _ => badArguments h

/-- A buffer with the text of a number. -/
def numberText : Capability where
  params := [.f64]
  results := [.i32]
  action := .run fun args h =>
    match args with
    | [.f64 x] => freshBuffer h ⟨Utf8.encode (NumberLayout.script.render x)⟩
    | _ => badArguments h

def power : Capability where
  params := [.f64, .f64]
  results := [.f64]
  action := .run fun args h =>
    match args with
    | [.f64 x, .f64 y] => some (.ok [.f64 (x.pow y)], h)
    | _ => badArguments h

/-- A fresh buffer of a number of zero bytes. -/
def bufferNew : Capability where
  params := [.i32]
  results := [.i32]
  action := .run fun args h =>
    match args with
    | [.i32 n] =>
      let n := n.toInt32
      if n < 0 then some (hostError (.invalidLength n), h)
      else freshBuffer h ⟨Array.replicate n.toInt.toNat 0⟩
    | _ => badArguments h

/-- An index is in range if it is not negative and below the size. -/
def inRange (index : Int32) (size : Nat) : Bool := 0 ≤ index && index.toInt < size

/-- Stores the low byte of a word in a live buffer. -/
def bufferSet : Capability where
  params := [.i32, .i32, .i32]
  results := []
  action := .run fun args h =>
    match args with
    | [.i32 buffer, .i32 index, .i32 w] =>
      let buffer := buffer.toInt32
      let index := index.toInt32
      match (h.buffers.get buffer).map ByteArray.size with
      | .error e => some (hostError e, h)
      | .ok size =>
        if inRange index size then
          let set (bytes : ByteArray) := bytes.set! index.toInt.toNat w.toUInt8
          some (.ok [], { h with buffers := h.buffers.modify buffer set })
        else some (hostError (.bufferIndex buffer index), h)
    | _ => badArguments h

/-- The byte at an index of a live buffer. -/
def bufferGet : Capability where
  params := [.i32, .i32]
  results := [.i32]
  action := .run fun args h =>
    match args with
    | [.i32 buffer, .i32 index] =>
      let buffer := buffer.toInt32
      let index := index.toInt32
      match h.buffers.get buffer with
      | .error e => some (hostError e, h)
      | .ok bytes =>
        if inRange index bytes.size then
          some (.ok [.i32 (bytes[index.toInt.toNat]?.getD 0).toUInt32], h)
        else some (hostError (.bufferIndex buffer index), h)
    | _ => badArguments h

/-- The number of bytes in a live buffer, which must be a positive word. -/
def bufferSize : Capability where
  params := [.i32]
  results := [.i32]
  action := .run fun args h =>
    match args with
    | [.i32 buffer] =>
      let buffer := buffer.toInt32
      match h.buffers.get buffer with
      | .error e => some (hostError e, h)
      | .ok bytes =>
        if (bytes.size : Int) ≤ Int32.maxValue.toInt then some (.ok [.i32 (UInt32.ofNat bytes.size)], h)
        else some (hostError (.invalidBuffer buffer), h)
    | _ => badArguments h

def bufferDrop : Capability := consuming [] fun _ h => (.ok [], h)

/-- Raises a guest value as an error. -/
def throw : Capability where
  params := [.i32]
  results := []
  action := .run fun args h =>
    match args with
    | [.i32 v] => some (.error (.thrown v.toInt32), h)
    | _ => badArguments h

/-- The capabilities of a session whose streams lead to an outlet, by namespace and name,
before any override. -/
def defaults (o : Outlet) : Registry Capability :=
  Registry.empty
    |>.add "load" "load" load
    |>.add "native" "stdout" (write o .output)
    |>.add "native" "stderr" (write o .errors)
    |>.add "native" "to_num" toNumber
    |>.add "native" "to_int" toInteger
    |>.add "native" "int_to_string" integerText
    |>.add "native" "num_to_string" numberText
    |>.add "native" "pow" power
    |>.add "buffer" "new" bufferNew
    |>.add "buffer" "set" bufferSet
    |>.add "buffer" "get" bufferGet
    |>.add "buffer" "size" bufferSize
    |>.add "buffer" "drop" bufferDrop
    |>.add "error" "throw" throw

end GuestHost.Capability
