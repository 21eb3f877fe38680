import GuestHost.Number.Binary64

/-! The shortest decimal that reads back as a binary64 number. The search walks
decimal grids from coarse to fine and takes the first that has a point in the
interval of reals rounding to the number. -/

namespace GuestHost

/-- The decimal `digits * 10 ^ exponent`. -/
structure Decimal where
  digits : Nat
  exponent : Int
  deriving DecidableEq, Repr

/-- Which of two equally near decimals is taken. -/
inductive Tie
  | up
  | even
  deriving DecidableEq, Repr

namespace Decimal

/-- The same decimal with no trailing zero in its digits; at most `fuel` are removed. -/
def strip : Nat → Decimal → Decimal
  | 0, d => d
  | fuel + 1, d =>
    if d.digits ≠ 0 ∧ d.digits % 10 = 0 then strip fuel ⟨d.digits / 10, d.exponent + 1⟩ else d

/-- Digits of the decimal, most significant first. -/
def text (d : Decimal) : List Char := Nat.toDigits 10 d.digits

end Decimal

/-- The reals that round to a positive finite number, in quarters of its unit:
`low`, `value` and `high` times `2 ^ (unit - 2)`. The ends belong to it when the
significand is even, and the gap below a power of two is half as wide. -/
structure RoundingInterval where
  low : Nat
  value : Nat
  high : Nat
  unit : Int
  closed : Bool
  deriving DecidableEq, Repr

namespace RoundingInterval

def of (x : Binary64) : RoundingInterval :=
  let m := x.significand
  let narrow := m = Binary64.leadingBit ∧ -1074 < x.scale
  { low := if narrow then 4 * m - 1 else 4 * m - 2
    value := 4 * m
    high := 4 * m + 2
    unit := x.scale
    closed := m % 2 = 0 }

/-- Both sides of a comparison of `n * 2 ^ (unit - 2)` with `d * 10 ^ grid`,
cleared of denominators. -/
def sides (r : RoundingInterval) (grid : Int) (n d : Nat) : Nat × Nat :=
  (n * Nat.pow 2 (r.unit - 2).toNat * Nat.pow 10 (-grid).toNat,
   d * Nat.pow 2 (2 - r.unit).toNat * Nat.pow 10 grid.toNat)

/-- The decimal `d * 10 ^ grid` lies in the interval. -/
def contains (r : RoundingInterval) (grid : Int) (d : Nat) : Bool :=
  let (low, x) := r.sides grid r.low d
  let (high, _) := r.sides grid r.high d
  if r.closed then low ≤ x && x ≤ high else low < x && x < high

/-- The largest multiple of `10 ^ grid` that is at most the value. -/
def floorOn (r : RoundingInterval) (grid : Int) : Nat :=
  let (v, one) := r.sides grid r.value 1
  v / one

/-- Of two decimals of one grid around the value, the nearer. -/
def nearer (r : RoundingInterval) (tie : Tie) (grid : Int) (d : Nat) : Nat :=
  let (v, mid) := r.sides grid (2 * r.value) (2 * d + 1)
  if v < mid then d
  else if mid < v then d + 1
  else match tie with
    | .up => d + 1
    | .even => if d % 2 = 0 then d else d + 1

/-- The point of one grid that reads back, if there is one. -/
def pointOn? (r : RoundingInterval) (tie : Tie) (grid : Int) : Option Decimal :=
  let d := r.floorOn grid
  match r.contains grid d, r.contains grid (d + 1) with
  | true, true => some ⟨r.nearer tie grid d, grid⟩
  | true, false => some ⟨d, grid⟩
  | false, true => some ⟨d + 1, grid⟩
  | false, false => none

/-- The least `k` with the value below `10 ^ k`, looked for from a lower bound
that the binary logarithm gives. -/
def decimalScale (r : RoundingInterval) : Int :=
  let e := ((r.value.log2 : Int) + r.unit - 2) * 1233
  let k := e.fdiv 4096
  let below (k : Int) : Bool := let (v, p) := r.sides k r.value 1; v < p
  if below k then k else if below (k + 1) then k + 1 else k + 2

/-- The first point among grids `grid`, `grid - 1`, … . -/
def search (r : RoundingInterval) (tie : Tie) : Nat → Int → Option Decimal
  | 0, _ => none
  | n + 1, grid => (r.pointOn? tie grid).or (search r tie n (grid - 1))

/-- The value itself as a decimal. -/
def exact (r : RoundingInterval) : Decimal :=
  ⟨r.value * Nat.pow 2 (r.unit - 2).toNat * Nat.pow 5 (2 - r.unit).toNat, -(2 - r.unit).toNat⟩

end RoundingInterval

/-- The decimal with the fewest digits that reads back as a positive finite
number, and of those the nearest to it. -/
def Binary64.shortest (tie : Tie) (x : Binary64) : Decimal :=
  let r := RoundingInterval.of x
  let d := (r.search tie 17 (r.decimalScale - 1)).getD r.exact
  d.strip 800

end GuestHost
