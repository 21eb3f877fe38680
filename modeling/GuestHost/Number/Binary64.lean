/-! The binary64 format of IEEE 754 as exact arithmetic: a number is its bits, a
finite one denotes an integer times a power of two, and a quotient of naturals is
rounded to the nearest number, ties to the even one. -/

namespace GuestHost

/-- A binary64 number, kept as its bits. Two of them are equal when their bits are. -/
structure Binary64 where
  bits : UInt64
  deriving DecidableEq, Repr, Inhabited

namespace Binary64

/-- The weight of the sign bit, `2 ^ 63`. -/
abbrev signBit : Nat := 0x8000000000000000

/-- The weight of the bit that normal numbers leave out of their fraction, `2 ^ 52`. -/
abbrev leadingBit : Nat := 0x10000000000000

/-- The sign bit is set. -/
def isNegative (x : Binary64) : Bool := signBit ≤ x.bits.toNat

/-- The bits below the sign, which order the magnitudes. -/
def magnitude (x : Binary64) : Nat := x.bits.toNat % signBit

def exponentField (x : Binary64) : Nat := x.magnitude / leadingBit

def fraction (x : Binary64) : Nat := x.magnitude % leadingBit

def isNaN (x : Binary64) : Bool := x.exponentField == 2047 && x.fraction != 0

def isInfinite (x : Binary64) : Bool := x.exponentField == 2047 && x.fraction == 0

def isFinite (x : Binary64) : Bool := x.exponentField != 2047

def isZero (x : Binary64) : Bool := x.magnitude == 0

/-- A finite number has the magnitude `significand * 2 ^ scale`. -/
def significand (x : Binary64) : Nat :=
  if x.exponentField = 0 then x.fraction else leadingBit + x.fraction

def scale (x : Binary64) : Int :=
  (max x.exponentField 1 : Nat) - 1075

/-- The number with a sign and the bits of a magnitude. Magnitudes past the
largest finite one give an infinity. -/
def ofMagnitude (negative : Bool) (n : Nat) : Binary64 :=
  ⟨UInt64.ofNat ((if negative then signBit else 0) + min n (2047 * leadingBit))⟩

def zero (negative : Bool) : Binary64 := ofMagnitude negative 0

def infinity (negative : Bool) : Binary64 := ofMagnitude negative (2047 * leadingBit)

def nan : Binary64 := ⟨0x7FF8000000000000⟩

/-- The natural nearest to `num / den`; a half goes to the even neighbour. -/
def roundHalfEven (num den : Nat) : Nat :=
  let q := num / den
  let r := num % den
  if 2 * r < den then q
  else if den < 2 * r then q + 1
  else q + q % 2

/-- The largest `e` with `2 ^ e ≤ num / den`, for positive `num` and `den`. -/
def floorLog2 (num den : Nat) : Int :=
  let e : Int := (num.log2 : Int) - den.log2
  if den * Nat.pow 2 e.toNat ≤ num * Nat.pow 2 (-e).toNat then e else e - 1

/-- The number nearest to `num / den`, ties to the even significand; quotients
past the largest finite number by half a step or more give an infinity. -/
def ofRatio (negative : Bool) (num den : Nat) : Binary64 :=
  if num = 0 then zero negative
  else
    let q := max (floorLog2 num den - 52) (-1074)
    let m := roundHalfEven (num * Nat.pow 2 (-q).toNat) (den * Nat.pow 2 q.toNat)
    ofMagnitude negative ((q + 1074).toNat * leadingBit + m)

/-- The number nearest to an integer. -/
def ofInt (n : Int) : Binary64 := ofRatio (decide (n < 0)) n.natAbs 1

/-- The integral part of a finite number, without its sign. -/
def wholePart (x : Binary64) : Nat :=
  x.significand * Nat.pow 2 x.scale.toNat / Nat.pow 2 (-x.scale).toNat

/-- A finite number has no fractional part exactly when its magnitude is whole. -/
def isIntegral (x : Binary64) : Bool :=
  x.isFinite && x.significand * Nat.pow 2 x.scale.toNat % Nat.pow 2 (-x.scale).toNat == 0

/-- A finite number rounded toward zero. -/
def truncate (x : Binary64) : Int :=
  if x.isNegative then -(x.wholePart : Int) else x.wholePart

/-- A number with the other sign bit. -/
def neg (x : Binary64) : Binary64 := ⟨x.bits ^^^ 0x8000000000000000⟩

/-- Sum in the format: correctly rounded, and a quiet NaN operand is passed on. -/
def add (x y : Binary64) : Binary64 :=
  if x.isNaN then ⟨x.bits ||| 0x0008000000000000⟩
  else if y.isNaN then ⟨y.bits ||| 0x0008000000000000⟩
  else ⟨(Float.ofBits x.bits + Float.ofBits y.bits).toBits⟩

/-- Power of two numbers, as the machine computes it. -/
def pow (x y : Binary64) : Binary64 :=
  ⟨(Float.pow (Float.ofBits x.bits) (Float.ofBits y.bits)).toBits⟩

end Binary64

end GuestHost
