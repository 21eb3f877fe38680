import GuestHost.Number.Shortest

/-! Texts of a binary64 number. One selection of digits feeds every layout; a
layout decides where positional notation ends and how special values are spelt. -/

namespace GuestHost

/-- The decisions of one number format. With the digits `d₁ … dₖ` and the value
`0.d₁ … dₖ * 10 ^ n`, notation is positional when `n` lies in the window `(low, high]`
(always, if there is no window) and has an exponent otherwise. -/
structure NumberLayout where
  tie : Tie
  window : Option (Int × Int)
  /-- What follows a whole number in positional notation. -/
  wholeSuffix : List Char
  /-- Negative zero keeps its sign. -/
  signedZero : Bool
  nan : List Char
  infinity : List Char
  negativeInfinity : List Char

namespace NumberLayout

/-- Numbers as scripts print them: positional from `1e-6` up to below `1e21`. -/
def script : NumberLayout where
  tie := .up
  window := some (-6, 21)
  wholeSuffix := []
  signedZero := false
  nan := "NaN".toList
  infinity := "Infinity".toList
  negativeInfinity := "-Infinity".toList

/-- Numbers as values are displayed: always positional. -/
def plain : NumberLayout where
  tie := .up
  window := none
  wholeSuffix := []
  signedZero := true
  nan := "NaN".toList
  infinity := "inf".toList
  negativeInfinity := "-inf".toList

/-- Numbers in printed results: positional from `1e-5` up to below `1e16`, always
with a point or an exponent; what is not a finite number is null. -/
def json : NumberLayout where
  tie := .even
  window := some (-5, 16)
  wholeSuffix := ['.', '0']
  signedZero := true
  nan := "null".toList
  infinity := "null".toList
  negativeInfinity := "null".toList

/-- Digits with the decimal point after the first `n` of them. -/
def positional (l : NumberLayout) (digits : List Char) (n : Int) : List Char :=
  let k : Int := digits.length
  if k ≤ n then digits ++ List.replicate (n - k).toNat '0' ++ l.wholeSuffix
  else if 0 < n then digits.take n.toNat ++ '.' :: digits.drop n.toNat
  else ['0', '.'] ++ List.replicate (-n).toNat '0' ++ digits

/-- Digits with the point after the first of them and an exponent with its sign. -/
def scientific (digits : List Char) (n : Int) : List Char :=
  let e := n - 1
  let fraction := digits.drop 1
  digits.take 1 ++ (if fraction.isEmpty then [] else '.' :: fraction) ++
    'e' :: (if e < 0 then '-' else '+') :: Nat.toDigits 10 e.natAbs

/-- The layout's decision for the position of the decimal point. -/
def isPositional (l : NumberLayout) (n : Int) : Bool :=
  match l.window with
  | none => true
  | some (low, high) => low < n && n ≤ high

/-- Text of a positive decimal. -/
def decimal (l : NumberLayout) (d : Decimal) : List Char :=
  let digits := d.text
  let n := d.exponent + digits.length
  if l.isPositional n then l.positional digits n else scientific digits n

/-- Text of a finite number's magnitude. -/
def unsigned (l : NumberLayout) (x : Binary64) : List Char :=
  if x.isZero then '0' :: l.wholeSuffix
  else l.decimal (x.shortest l.tie)

def chars (l : NumberLayout) (x : Binary64) : List Char :=
  if x.isNaN then l.nan
  else if x.isInfinite then if x.isNegative then l.negativeInfinity else l.infinity
  else if x.isNegative && (l.signedZero || !x.isZero) then '-' :: l.unsigned x
  else l.unsigned x

/-- Text of a number in a layout. -/
def render (l : NumberLayout) (x : Binary64) : String :=
  String.ofList (l.chars x)

end NumberLayout

end GuestHost
