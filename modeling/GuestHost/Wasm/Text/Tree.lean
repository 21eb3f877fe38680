import GuestHost.Text.Utf8

/-! Module text as trees: words, strings and parenthesised lists. White space and
comments separate them and mean nothing. -/

namespace GuestHost.Wasm.Text

inductive Token
  | opening
  | closing
  | word (s : String)
  | string (bytes : List UInt8)
  deriving DecidableEq, Repr

/-- Characters that words are made of. -/
def isWordChar (c : Char) : Bool :=
  c.isAlphanum || "!#$%&'*+-./:<=>?@\\^_`|~".toList.contains c

/-- Characters that reorder the text around them and so may mislead a reader. They
may stand neither in a comment nor in a string. -/
def isMisleading (c : Char) : Bool :=
  let n := c.toNat
  (0x202A ≤ n && n ≤ 0x202E) || (0x2066 ≤ n && n ≤ 0x2069)

def hexDigit? (c : Char) : Option Nat :=
  if c.isDigit then some (c.toNat - '0'.toNat)
  else if 'a' ≤ c ∧ c ≤ 'f' then some (c.toNat - 'a'.toNat + 10)
  else if 'A' ≤ c ∧ c ≤ 'F' then some (c.toNat - 'A'.toNat + 10)
  else none

/-- Where a scan stands. -/
inductive Mode
  /-- Between tokens. -/
  | between
  /-- In a word; its characters, last first. -/
  | word (acc : List Char)
  /-- In a string; its bytes, last first. -/
  | string (acc : List UInt8)
  /-- In a numeric escape of a string: its value, and whether it has a digit yet. -/
  | escape (acc : List UInt8) (code : Nat) (some : Bool)
  /-- Behind a string, where no token may begin at once. -/
  | afterString
  | lineComment
  /-- In a comment with this many comments around it. -/
  | blockComment (depth : Nat)

/-- The bytes of a character, last first. -/
def reversedBytes (c : Char) : List UInt8 := (String.utf8EncodeChar c).reverse

/-- The character after a backslash, where it stands for one byte. -/
def simpleEscape? : Char → Option UInt8
  | 't' => some 9
  | 'n' => some 10
  | 'r' => some 13
  | '"' => some 34
  | '\'' => some 39
  | '\\' => some 92
  | _ => none

/-- Scans the rest of a text; `out` holds the tokens so far, last first. -/
def scan : Mode → List Token → List Char → Option (List Token)
  | .between, out, [] => some out.reverse
  | .word acc, out, [] => some (.word (String.ofList acc.reverse) :: out).reverse
  | .afterString, out, [] => some out.reverse
  | .lineComment, out, [] => some out.reverse
  | .string _, _, [] => none
  | .escape _ _ _, _, [] => none
  | .blockComment _, _, [] => none
  | .lineComment, out, c :: cs =>
    if isMisleading c then none
    else if c = '\n' ∨ c = '\r' then scan .between out cs
    else scan .lineComment out cs
  | .blockComment depth, out, ';' :: ')' :: cs =>
    match depth with
    | 0 => scan .between out cs
    | depth + 1 => scan (.blockComment depth) out cs
  | .blockComment depth, out, '(' :: ';' :: cs => scan (.blockComment (depth + 1)) out cs
  | .blockComment depth, out, c :: cs =>
    if isMisleading c then none else scan (.blockComment depth) out cs
  | .string acc, out, '"' :: cs => scan .afterString (.string acc.reverse :: out) cs
  | .string acc, out, '\\' :: 'u' :: '\x7b' :: cs => scan (.escape acc 0 false) out cs
  | .string acc, out, '\\' :: c :: cs =>
    match simpleEscape? c with
    | some b => scan (.string (b :: acc)) out cs
    | none =>
      match hexDigit? c, cs with
      | some high, d :: cs =>
        match hexDigit? d with
        | some low => scan (.string (UInt8.ofNat (16 * high + low) :: acc)) out cs
        | none => none
      | _, _ => none
  | .string acc, out, c :: cs =>
    if c = '\\' ∨ c.toNat < 0x20 ∨ c.toNat = 0x7F ∨ isMisleading c then none
    else scan (.string (reversedBytes c ++ acc)) out cs
  | .escape acc code seen, out, c :: cs =>
    if c = '\x7d' then
      if seen ∧ code.isValidChar then scan (.string (reversedBytes (Char.ofNat code) ++ acc)) out cs
      else none
    else
      match hexDigit? c with
      | some d => if code < 0x110000 then scan (.escape acc (16 * code + d) true) out cs else none
      | none => none
  | .between, out, ';' :: ';' :: cs => scan .lineComment out cs
  | .between, out, '(' :: ';' :: cs => scan (.blockComment 0) out cs
  | .between, out, c :: cs =>
    if c = ' ' ∨ c = '\t' ∨ c = '\n' ∨ c = '\r' then scan .between out cs
    else if c = '(' then scan .between (.opening :: out) cs
    else if c = ')' then scan .between (.closing :: out) cs
    else if c = '"' then scan (.string []) out cs
    else if isWordChar c then scan (.word [c]) out cs
    else none
  | .afterString, out, ';' :: ';' :: cs => scan .lineComment out cs
  | .afterString, out, '(' :: ';' :: cs => scan (.blockComment 0) out cs
  | .afterString, out, c :: cs =>
    if c = ' ' ∨ c = '\t' ∨ c = '\n' ∨ c = '\r' then scan .between out cs
    else if c = '(' then scan .between (.opening :: out) cs
    else if c = ')' then scan .between (.closing :: out) cs
    else none
  | .word acc, out, ';' :: ';' :: cs =>
    scan .lineComment (.word (String.ofList acc.reverse) :: out) cs
  | .word acc, out, '(' :: ';' :: cs =>
    scan (.blockComment 0) (.word (String.ofList acc.reverse) :: out) cs
  | .word acc, out, c :: cs =>
    let done := .word (String.ofList acc.reverse) :: out
    if isWordChar c then scan (.word (c :: acc)) out cs
    else if c = ' ' ∨ c = '\t' ∨ c = '\n' ∨ c = '\r' then scan .between done cs
    else if c = '(' then scan .between (.opening :: done) cs
    else if c = ')' then scan .between (.closing :: done) cs
    else none

/-- The tokens of a text. -/
def tokens? (text : String) : Option (List Token) := scan .between [] text.toList

/-- A piece of module text. -/
inductive Tree
  | word (s : String)
  | string (bytes : List UInt8)
  | list (ts : List Tree)
  deriving Repr

/-- Builds trees from tokens. `open_` holds the trees of every list still open, the
innermost list first and in each the last tree first. -/
def build : List (List Tree) → List Token → Option (List Tree)
  | [top], [] => some top.reverse
  | _, [] => none
  | open_, .opening :: ts => build ([] :: open_) ts
  | inner :: outer :: rest, .closing :: ts =>
    build ((.list inner.reverse :: outer) :: rest) ts
  | _, .closing :: _ => none
  | inner :: rest, .word s :: ts => build ((.word s :: inner) :: rest) ts
  | inner :: rest, .string b :: ts => build ((.string b :: inner) :: rest) ts
  | [], _ :: _ => none

/-- The trees of a text. -/
def trees? (text : String) : Option (List Tree) := (tokens? text).bind (build [[]])

/-- An upper bound for the depth and length of what is read from a text. -/
def fuelOf (text : String) : Nat := text.length + 1

end GuestHost.Wasm.Text
