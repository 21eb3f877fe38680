/-! The two textual forms in which a compiled module can be listed, by name and in
JSON. -/

namespace GuestHost

/-- The form of a module listing. -/
inductive ListingFormat
  /-- The module re-printed as text, function by function. -/
  | function
  /-- One operator a line, under the index of its function. -/
  | stack
  deriving DecidableEq, Repr

namespace ListingFormat

def name : ListingFormat → String
  | function => "function"
  | stack => "stack"

/-- The number that stands for the form when it is passed to foreign code. -/
def code : ListingFormat → Nat
  | function => 0
  | stack => 1

/-- The form of a name, or the complaint about the name. -/
def ofName (s : String) : Except String ListingFormat :=
  if s = "function" then .ok function
  else if s = "stack" then .ok stack
  else .error ("unknown disassembly format '" ++ s ++ "' (expected function or stack)")

/-- White space of JSON documents. -/
def skipSpace (cs : List Char) : List Char :=
  cs.dropWhile fun c => c = ' ' || c = '\n' || c = '\r' || c = '\t'

/-- The character of a `\u` escape of the basic plane; surrogates are no characters. -/
def unicodeEscape? (ds : List Char) : Option Char :=
  let value (c : Char) : Option Nat :=
    if c.isDigit then some (c.toNat - '0'.toNat)
    else if 'a' ≤ c ∧ c ≤ 'f' then some (c.toNat - 'a'.toNat + 10)
    else if 'A' ≤ c ∧ c ≤ 'F' then some (c.toNat - 'A'.toNat + 10)
    else none
  let code := ds.foldl (fun n c => match n, value c with
    | some n, some d => some (n * 16 + d)
    | _, _ => none) (some 0)
  code.bind fun n => if n.isValidChar then some (Char.ofNat n) else none

/-- Reads a JSON string up to its closing quote; `acc` holds the characters read,
last first. Escapes that no format name can hold are refused. -/
def stringBody? : List Char → List Char → Option (String × List Char)
  | acc, '"' :: rest => some (String.ofList acc.reverse, rest)
  | acc, '\\' :: 'u' :: a :: b :: c :: d :: rest =>
    match unicodeEscape? [a, b, c, d] with
    | some ch => stringBody? (ch :: acc) rest
    | none => none
  | _, '\\' :: _ => none
  | acc, c :: rest => if c.toNat < 0x20 then none else stringBody? (c :: acc) rest
  | _, [] => none

/-- A JSON document that names a form: a string, or an object whose one key is the
name and whose value is null. -/
def ofJson? (document : String) : Option ListingFormat :=
  let named (s : String) : Option ListingFormat := (ofName s).toOption
  match skipSpace document.toList with
  | '"' :: cs =>
    match stringBody? [] cs with
    | some (s, rest) => if (skipSpace rest).isEmpty then named s else none
    | none => none
  | '\x7b' :: cs =>
    match skipSpace cs with
    | '"' :: cs =>
      match stringBody? [] cs with
      | some (s, rest) =>
        match skipSpace rest with
        | ':' :: rest =>
          match skipSpace rest with
          | 'n' :: 'u' :: 'l' :: 'l' :: rest =>
            match skipSpace rest with
            | '\x7d' :: rest => if (skipSpace rest).isEmpty then named s else none
            | _ => none
          | _ => none
        | _ => none
      | none => none
    | _ => none
  | _ => none

/-- The form as a JSON document. -/
def json (f : ListingFormat) : String := "\"" ++ f.name ++ "\""

end ListingFormat

end GuestHost
