import GuestHost.CommandLine.Argument
import GuestHost.CommandLine.Invocation
import GuestHost.Compiler.Builtin
import GuestHost.Session.Basic

/-! Running a command: a script is loaded in a session of its own and called once.
What the program writes is a list of chunks, each for one of its two streams. -/

namespace GuestHost.CommandLine

/-- What a program wrote, in order, and how it ended. -/
structure Transcript where
  chunks : List (Stream × Array UInt8) := []
  exit : Nat := 0
  deriving DecidableEq, Repr

namespace Transcript

/-- The chunks of one stream, put together. -/
def stream (t : Transcript) (s : Stream) : Array UInt8 :=
  t.chunks.foldl (fun out (s', bytes) => if s' = s then out ++ bytes else out) #[]

/-- The transcript of a program that wrote something before. -/
def after (t : Transcript) (chunks : List (Stream × Array UInt8)) : Transcript :=
  { t with chunks := chunks ++ t.chunks }

end Transcript

/-- Why a file was not read. -/
inductive ReadFailure
  | missing
  | directory
  | notDirectory
  | other (text : String)
  deriving DecidableEq, Repr

def ReadFailure.message : ReadFailure → String
  | missing => "No such file or directory (os error 2)"
  | directory => "Is a directory (os error 21)"
  | notDirectory => "Not a directory (os error 20)"
  | other text => text

def outputText (s : String) : Stream × Array UInt8 := (.output, Utf8.encode s)

def errorText (s : String) : Stream × Array UInt8 := (.errors, Utf8.encode s)

/-- The end of a program that failed, with the cause of the failure if the failure has
one of its own. Every line of the cause is indented. -/
def failure (what : String) (cause : Option String) : Transcript :=
  let indented (s : String) : List Char :=
    s.toList.flatMap fun c => if c = '\n' then "\n    ".toList else [c]
  let tail := match cause with
    | none => ""
    | some c => "\n\nCaused by:\n    " ++ String.ofList (indented c)
  { chunks := [errorText ("Error: " ++ what ++ tail ++ "\n")], exit := 1 }

/-- What a guest wrote, as far as the trace tells. -/
def guestChunks (trace : Array Event) : List (Stream × Array UInt8) :=
  trace.toList.filterMap fun
    | .wrote s bytes => some (s, bytes)
    | _ => none

/-- The line that tells what a call returned, where numbers are printed as is said. -/
def resultLine (numbers : Binary64 → List Char) (v : Returned) : Stream × Array UInt8 :=
  outputText (v.json numbers ++ "\n")

/-- A script that is ready to be called. -/
structure Loaded where
  session : Session
  entry : Entry

def Invocation.config (i : Invocation) : Config where
  options := ⟨i.optimize, i.standalone⟩
  format := i.format

/-- Opens a session and loads the script. Either the program ends here, or it goes on
after the given chunks. -/
def Invocation.load (i : Invocation) (fuel : Nat) (source : Except ReadFailure (Array UInt8)) :
    Option (Except Transcript (Loaded × List (Stream × Array UInt8))) :=
  match source with
  | .error e => some (.error (failure ("failed to read " ++ i.path) (some e.message)))
  | .ok source =>
    match Session.openWith fuel 0 Builtin.compiler i.config with
    | none => none
    | some (.error e, h) => some (.error ((failure e.message none).after (guestChunks h.trace)))
    | some (.ok s, _) =>
      (s.load fuel source).map fun (r, s) =>
        let written := guestChunks s.host.trace
        match r with
        | .error e =>
          .error ((failure ("failed to load " ++ i.path) (some e.message)).after written)
        | .ok (entry, listing) =>
          .ok (⟨s, entry⟩, written ++ (listing.map fun t => outputText (t ++ "\n")).toList)

/-- Calls the script and prints what it returns. -/
def Loaded.call (l : Loaded) (fuel : Nat) (args : List String) : Option Transcript :=
  (l.session.call fuel l.entry (args.map Value.ofArgument)).map fun (r, s) =>
    let before := l.session.host.trace.size
    let written := guestChunks (s.host.trace.extract before s.host.trace.size)
    match r with
    | .error e => (failure e.message none).after written
    | .ok v => { chunks := written ++ [resultLine NumberLayout.json.chars v] }

/-- Runs a script from beginning to end. -/
def Invocation.run (i : Invocation) (fuel : Nat) (source : Except ReadFailure (Array UInt8)) :
    Option Transcript :=
  match i.load fuel source with
  | none => none
  | some (.error t) => some t
  | some (.ok (l, chunks)) => (l.call fuel i.args).map (·.after chunks)

/-- Runs a command, with a way to read files. -/
def Command.perform (c : Command) (fuel : Nat)
    (fileAt : String → Except ReadFailure (Array UInt8)) : Option Transcript :=
  match c with
  | .help => some { chunks := [outputText helpText] }
  | .version => some { chunks := [outputText versionText] }
  | .misuse m => some { chunks := [errorText m.message], exit := 2 }
  | .run i => i.run fuel (fileAt i.path)

end GuestHost.CommandLine
