import GuestHost.Compiler.Listing

/-! What a command line asks for. Options are recognised up to the first argument of
the script; from there on, and after a lone `--`, everything is taken as it stands. -/

namespace GuestHost.CommandLine

/-- A script to run. -/
structure Invocation where
  path : String
  format : Option ListingFormat := none
  optimize : Bool := true
  standalone : Bool := false
  verbose : Bool := false
  args : List String := []
  deriving DecidableEq, Repr

/-- Why a command line is refused. -/
inductive Misuse
  | missingPath
  | emptyPath
  | unknown (option : String)
  | repeated (option : String)
  | missingValue (option : String)
  | excessValue (option value : String)
  | badFormat (value complaint : String)
  deriving DecidableEq, Repr

inductive Command
  | run (i : Invocation)
  | help
  | version
  | misuse (m : Misuse)
  deriving DecidableEq, Repr

/-- The option that takes a value. -/
def formatOption : String := "--format <function|stack>"

/-- What was read so far; a flag is none until it is given. -/
structure Draft where
  path : Option String := none
  format : Option ListingFormat := none
  noOptimize : Bool := false
  standalone : Bool := false
  verbose : Bool := false

namespace Draft

/-- The command of a complete line. -/
def finish (d : Draft) (args : List String) : Command :=
  match d.path with
  | none => .misuse .missingPath
  | some path =>
    .run
      { path, args
        format := d.format
        optimize := !d.noOptimize
        standalone := d.standalone
        verbose := d.verbose }

/-- The rest of the line when no option is looked for any more. -/
def verbatim (d : Draft) : List String → Command
  | [] => d.finish []
  | s :: rest =>
    match d.path with
    | some _ => d.finish (s :: rest)
    | none => if s.isEmpty then .misuse .emptyPath else { d with path := some s }.finish rest

/-- Sets the listing format, once. -/
def withFormat (d : Draft) (s : String) : Except Misuse Draft :=
  match ListingFormat.ofName s with
  | .error complaint => .error (.badFormat s complaint)
  | .ok f =>
    if d.format.isSome then .error (.repeated formatOption) else .ok { d with format := some f }

/-- A flag by its long name. -/
def withFlag (d : Draft) (name : String) : Option (Except Misuse Draft) :=
  let once (given : Bool) (d : Draft) (option : String) : Except Misuse Draft :=
    if given then .error (.repeated option) else .ok d
  match name with
  | "no-optimize" => some (once d.noOptimize { d with noOptimize := true } "--no-optimize")
  | "standalone" => some (once d.standalone { d with standalone := true } "--standalone")
  | "verbose" => some (once d.verbose { d with verbose := true } "--verbose")
  | _ => none

/-- The letters of an argument that begins with one hyphen, and of which each must be
an option. -/
def letters (d : Draft) : List Char → Except Command Draft
  | [] => .ok d
  | 'v' :: cs =>
    match d.withFlag "verbose" with
    | some (.ok d) => d.letters cs
    | some (.error m) => .error (.misuse m)
    | none => .ok d
  | 'h' :: _ => .error .help
  | 'V' :: _ => .error .version
  | c :: _ => .error (.misuse (.unknown (String.ofList ['-', c])))

/-- The letters that are options. -/
def isLetter (c : Char) : Bool := c = 'v' || c = 'h' || c = 'V'

end Draft

/-- An option's name and the value attached to it. -/
def splitValue (cs : List Char) : String × Option String :=
  match cs.dropWhile (· != '=') with
  | [] => (String.ofList cs, none)
  | _ :: value => (String.ofList (cs.takeWhile (· != '=')), some (String.ofList value))

/-- Reads a command line. Once the path is there, what begins with a hyphen and is no
option is the first argument of the script. -/
def read (d : Draft) : List String → Command
  | [] => d.finish []
  | s :: rest =>
    match s.toList with
    | ['-', '-'] => d.verbatim rest
    | '-' :: '-' :: cs =>
      let (name, value) := splitValue cs
      let proceed : Except Misuse Draft → Command
        | .ok d => read d rest
        | .error m => .misuse m
      match name, value with
      | "format", some v => proceed (d.withFormat v)
      | "format", none =>
        match rest with
        | [] => .misuse (.missingValue formatOption)
        | v :: rest =>
          match d.withFormat v with
          | .ok d => read d rest
          | .error m => .misuse m
      | "help", none => .help
      | "version", none => .version
      | name, value =>
        match d.withFlag name, value with
        | some r, none => proceed r
        | some _, some v => .misuse (.excessValue ("--" ++ name) v)
        | none, _ =>
          if name = "help" ∨ name = "version" then
            .misuse (.excessValue ("--" ++ name) (value.getD ""))
          else if d.path.isSome then d.finish (s :: rest)
          else .misuse (.unknown ("--" ++ name))
    | '-' :: c :: cs =>
      if d.path.isSome && !(c :: cs).all Draft.isLetter then d.finish (s :: rest)
      else
        match d.letters (c :: cs) with
        | .ok d => read d rest
        | .error command => command
    | _ =>
      match d.path with
      | some _ => d.finish (s :: rest)
      | none => if s.isEmpty then .misuse .emptyPath else read { d with path := some s } rest

/-- The command of a list of arguments. -/
def Command.ofArguments (args : List String) : Command := read {} args

/-- The name of the program. -/
def program : String := "script-loader"

def usage : String := "Usage: " ++ program ++ " [OPTIONS] <PATH> [ARGS]..."

def versionText : String := program ++ " 0.1.0\n"

/-- Pads a text with blanks to a width. -/
def padded (width : Nat) (s : String) : String :=
  s ++ String.ofList (List.replicate (width - s.length) ' ')

def helpText : String :=
  let row (width : Nat) (left right : String) : String := padded width left ++ right ++ "\n"
  "Compile a script module and call its entry point\n\n" ++ usage ++ "\n\nArguments:\n" ++
    row 13 "  <PATH>" "Script source file" ++
    row 13 "  [ARGS]..." "Arguments for the entry point: integers, numbers, `nil`, or text" ++
    "\nOptions:\n" ++
    row 33 ("      " ++ formatOption) "Print the compiled module in this form before running it" ++
    row 33 "      --no-optimize" "" ++
    row 33 "      --standalone" "Do not link the shared runtime module" ++
    row 33 "  -v, --verbose" "" ++
    row 33 "  -h, --help" "Print help" ++
    row 33 "  -V, --version" "Print version"

/-- The complaint about a refused command line. -/
def Misuse.message (m : Misuse) : String :=
  let hint := "\n\nFor more information, try '--help'.\n"
  "error: " ++
    match m with
    | missingPath =>
      "the following required arguments were not provided:\n  <PATH>\n\nUsage: " ++ program ++
        " <PATH> [ARGS]..." ++ hint
    | emptyPath => "a value is required for '<PATH>' but none was supplied" ++ hint
    | unknown option => "unexpected argument '" ++ option ++ "' found\n\n" ++ usage ++ hint
    | repeated option =>
      "the argument '" ++ option ++ "' cannot be used multiple times\n\n" ++ usage ++ hint
    | missingValue option =>
      "a value is required for '" ++ option ++ "' but none was supplied" ++ hint
    | excessValue option value =>
      "unexpected value '" ++ value ++ "' for '" ++ option ++
        "' found; no more were expected\n\n" ++ usage ++ hint
    | badFormat value complaint =>
      "invalid value '" ++ value ++ "' for '" ++ formatOption ++ "': " ++ complaint ++ hint

end GuestHost.CommandLine
