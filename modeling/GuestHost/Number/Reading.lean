import GuestHost.Number.Binary64
import GuestHost.Text.Blank
import GuestHost.Text.Utf8

/-! Numbers read from text: decimal numerals, numerals with a radix prefix, and
the two conversions offered to guests. -/

namespace GuestHost

/-- A decimal numeral: a sign and `digits * 10 ^ exponent`. -/
structure Numeral where
  negative : Bool
  digits : Nat
  exponent : Int
  deriving DecidableEq, Repr

/-- The value of a digit in a radix up to sixteen. -/
def digitValue? (radix : Nat) (c : Char) : Option Nat :=
  let v :=
    if '0' ≤ c ∧ c ≤ '9' then some (c.toNat - '0'.toNat)
    else if 'a' ≤ c ∧ c ≤ 'f' then some (c.toNat - 'a'.toNat + 10)
    else if 'A' ≤ c ∧ c ≤ 'F' then some (c.toNat - 'A'.toNat + 10)
    else none
  v.filter (· < radix)

/-- The value of a string of decimal digits. -/
def digitsValue (cs : List Char) : Nat :=
  cs.foldl (fun n c => n * 10 + (c.toNat - '0'.toNat)) 0

/-- An integer is one of 64 bits. -/
def fitsInt64 (n : Int) : Bool := Int64.minValue.toInt ≤ n && n ≤ Int64.maxValue.toInt

/-- A leading sign and what follows it. -/
def splitSign : List Char → Bool × List Char
  | '-' :: cs => (true, cs)
  | '+' :: cs => (false, cs)
  | cs => (false, cs)

/-- Text that is an optional sign and one or more decimal digits. -/
def integer? (cs : List Char) : Option Int :=
  let (negative, digits) := splitSign cs
  if digits.isEmpty || !digits.all Char.isDigit then none
  else some (if negative then -(digitsValue digits : Int) else digitsValue digits)

namespace Numeral

/-- What follows the digits: nothing, or an exponent mark and a signed integer. -/
def exponent? : List Char → Option Int
  | [] => some 0
  | c :: cs => if c = 'e' ∨ c = 'E' then integer? cs else none

/-- Reads `[+-]? (D+ (. D*)? | . D+) ([eE] [+-]? D+)?`. -/
def ofChars? (cs : List Char) : Option Numeral :=
  let (negative, body) := splitSign cs
  let whole := body.takeWhile Char.isDigit
  let afterWhole := body.dropWhile Char.isDigit
  let (fraction, tail) :=
    match afterWhole with
    | '.' :: rest => (rest.takeWhile Char.isDigit, rest.dropWhile Char.isDigit)
    | rest => ([], rest)
  if whole.isEmpty && fraction.isEmpty then none
  else
    (exponent? tail).map fun e =>
      ⟨negative, digitsValue (whole ++ fraction), e - fraction.length⟩

/-- The nearest number. Decimals far outside the format's range are settled by
their number of digits alone. -/
def toBinary64 (n : Numeral) : Binary64 :=
  if n.digits = 0 then .zero n.negative
  else
    let size : Int := (Nat.toDigits 10 n.digits).length + n.exponent
    if 310 < size then .infinity n.negative
    else if size < -330 then .zero n.negative
    else .ofRatio n.negative (n.digits * Nat.pow 10 n.exponent.toNat)
      (Nat.pow 10 (-n.exponent).toNat)

end Numeral

namespace Binary64

/-- Appends a digit to a whole number and rounds. -/
def appendDigit (radix : Nat) (x : Binary64) (d : Nat) : Binary64 :=
  if x.isInfinite then x else .ofRatio false (x.wholePart * radix + d) 1

/-- A string of digits in a radix, rounded after every digit; not a number
when the string is empty or holds anything else. -/
def ofRadix (radix : Nat) (cs : List Char) : Binary64 :=
  if cs.isEmpty then nan
  else
    let step (acc : Option Binary64) (c : Char) : Option Binary64 :=
      match acc, digitValue? radix c with
      | some x, some d => some (x.appendDigit radix d)
      | _, _ => none
    (cs.foldl step (some (zero false))).getD nan

/-- The number a trimmed text denotes: nothing is zero, a radix prefix takes
unsigned digits, `Infinity` may have a sign, and all else is a decimal numeral or
not a number. -/
def ofChars : List Char → Binary64
  | [] => zero false
  | '0' :: 'x' :: cs | '0' :: 'X' :: cs => ofRadix 16 cs
  | '0' :: 'o' :: cs | '0' :: 'O' :: cs => ofRadix 8 cs
  | '0' :: 'b' :: cs | '0' :: 'B' :: cs => ofRadix 2 cs
  | cs =>
    let (negative, body) := splitSign cs
    if body = "Infinity".toList then infinity negative
    else ((Numeral.ofChars? cs).map Numeral.toBinary64).getD nan

/-- The number a byte string denotes, blanks at both ends ignored. -/
def ofBytes (bytes : Array UInt8) : Binary64 :=
  ofChars (Blank.trim (Utf8.decodeLossy bytes).toList)

/-- The integer a number equals, if it is one of 64 bits. -/
def toInt64? (x : Binary64) : Option Int64 :=
  if x.isIntegral ∧ fitsInt64 x.truncate then some (Int64.ofInt x.truncate) else none

end Binary64

/-- A decimal integer of 64 bits. -/
def int64? (cs : List Char) : Option Int64 :=
  (integer? cs).bind fun n =>
    if fitsInt64 n then some (Int64.ofInt n) else none

/-- The integer a byte string denotes: a decimal integer is taken as it is, other
text must denote an integral number in range. -/
def integerOfBytes? (bytes : Array UInt8) : Option Int64 :=
  (int64? (Blank.trim (Utf8.decodeLossy bytes).toList)).or (Binary64.ofBytes bytes).toInt64?

end GuestHost
