import GuestHost.CommandLine.Run

/-! The program: it reads the script, runs it, writes what there is to write, and tells
how long compiling and running took. -/

open GuestHost CommandLine

/-- More steps than any run takes. -/
def stepBound : Nat := 1000000000000000000

def writeChunks (chunks : List (Stream × Array UInt8)) : IO Unit := do
  let output ← IO.getStdout
  let errors ← IO.getStderr
  for (s, bytes) in chunks do
    let stream := match s with | .output => output | .errors => errors
    stream.write ⟨bytes⟩
    stream.flush

def readScript (path : String) : IO (Except ReadFailure (Array UInt8)) := do
  try
    return .ok (← IO.FS.readBinFile path).data
  catch e =>
    match e with
    | .noFileOrDirectory .. => return .error .missing
    | e => return .error (.other (toString e))

def finishWith : Option Transcript → IO UInt32
  | none => return 1
  | some t => do
    writeChunks t.chunks
    return UInt32.ofNat t.exit

def runScript (i : Invocation) : IO UInt32 := do
  let source ← readScript i.path
  let started ← IO.monoMsNow
  match i.load stepBound source with
  | none => return 1
  | some (.error t) => finishWith (some t)
  | some (.ok (l, chunks)) =>
    let loaded ← IO.monoMsNow
    writeChunks chunks
    let transcript := l.call stepBound i.args
    match transcript with
    | some ⟨_, 0⟩ =>
      let ended ← IO.monoMsNow
      IO.eprintln s!"compile: {loaded - started} ms, run: {ended - loaded} ms"
    | _ => pure ()
    finishWith transcript

def main (args : List String) : IO UInt32 :=
  match Command.ofArguments args with
  | .run i => runScript i
  | c => finishWith (c.perform stepBound fun _ => .error .missing)
