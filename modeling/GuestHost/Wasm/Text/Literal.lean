import GuestHost.Number.Binary64
import GuestHost.Wasm.Text.Tree

/-! Numbers and indices as module text writes them: decimal or hexadecimal, with
single underscores between digits. -/

namespace GuestHost.Wasm.Text

/-- A character as a digit of a base. -/
def digitOf? (base : Nat) (c : Char) : Option Nat := (hexDigit? c).filter (· < base)

/-- Reads digits of a base with single underscores between them: their value, their
number, and the rest. `after` says whether a digit came just before. -/
def digits (base : Nat) : Nat → Nat → Bool → List Char → Option (Nat × Nat × List Char)
  | n, k, after, '_' :: cs =>
    match after, cs with
    | true, c :: rest =>
      match digitOf? base c with
      | some d => digits base (n * base + d) (k + 1) true rest
      | none => none
    | _, _ => none
  | n, k, _, c :: cs =>
    match digitOf? base c with
    | some d => digits base (n * base + d) (k + 1) true cs
    | none => some (n, k, c :: cs)
  | n, k, _, [] => some (n, k, [])

/-- A natural number that is all of the characters. -/
def natural? (cs : List Char) : Option Nat :=
  let read (base : Nat) (cs : List Char) : Option Nat :=
    match digits base 0 0 false cs with
    | some (n, k, []) => if 0 < k then some n else none
    | _ => none
  match cs with
  | '0' :: 'x' :: rest => read 16 rest
  | cs => read 10 cs

/-- A sign, if there is one, and the rest. -/
def sign (cs : List Char) : Bool × List Char :=
  match cs with
  | '-' :: rest => (true, rest)
  | '+' :: rest => (false, rest)
  | rest => (false, rest)

/-- An integer of `bits` bits, signed or unsigned, as its unsigned value. -/
def integer? (bits : Nat) (word : String) : Option Nat :=
  let (negative, body) := sign word.toList
  match natural? body with
  | none => none
  | some n =>
    let size := Nat.pow 2 bits
    if negative then if 2 * n ≤ size then some ((size - n) % size) else none
    else if n < size then some n else none

/-- An unsigned integer of 32 bits. -/
def index? (word : String) : Option Nat := (natural? word.toList).filter (· < UInt32.size)

/-- An exponent: nothing, or one of the marks and a signed decimal. -/
def exponent? (marks : List Char) : List Char → Option Int
  | [] => some 0
  | c :: cs =>
    if c ∈ marks then
      let (negative, body) := sign cs
      match digits 10 0 0 false body with
      | some (n, k, []) => if 0 < k then some (if negative then -(n : Int) else n) else none
      | _ => none
    else none

/-- The number nearest to `n * radix ^ e`, if it is finite; exponents far outside the
range of the format are settled by size alone. -/
def scaled? (negative : Bool) (n : Nat) (radix : Nat) (e : Int) : Option Binary64 :=
  let size : Int := n.log2 + 1
  let up : Int := if radix = 2 then size + e else (size + e * 4)
  if n = 0 then some (.zero negative)
  else if e > 5000 then none
  else if up < -20000 then some (.zero negative)
  else
    let x := Binary64.ofRatio negative (n * Nat.pow radix e.toNat) (Nat.pow radix (-e).toNat)
    if x.isInfinite then none else some x

/-- A floating-point constant: digits with an optional point and exponent, in decimal
or hexadecimal, an infinity, or not a number with or without a payload. -/
def float? (word : String) : Option Binary64 :=
  let (negative, body) := sign word.toList
  let signed (x : Binary64) : Binary64 := if negative then x.neg else x
  if body = "inf".toList then some (.infinity negative)
  else if body = "nan".toList then some (signed .nan)
  else
    match body with
    | 'n' :: 'a' :: 'n' :: ':' :: '0' :: 'x' :: rest =>
      match digits 16 0 0 false rest with
      | some (n, k, []) =>
        if 0 < k ∧ 0 < n ∧ n < Binary64.leadingBit then
          some (signed ⟨UInt64.ofNat (2047 * Binary64.leadingBit + n)⟩)
        else none
      | _ => none
    | _ =>
      let (base, marks, radix, body) : Nat × List Char × Nat × List Char :=
        match body with
        | '0' :: 'x' :: rest => (16, ['p', 'P'], 2, rest)
        | rest => (10, ['e', 'E'], 10, rest)
      match digits base 0 0 false body with
      | none => none
      | some (whole, k, rest) =>
        if k = 0 then none
        else
          let fraction : Option (Nat × Nat × List Char) :=
            match rest with
            | '.' :: rest => digits base whole 0 false rest
            | rest => some (whole, 0, rest)
          match fraction with
          | none => none
          | some (n, places, tail) =>
            match exponent? marks tail with
            | none => none
            | some e => scaled? negative n radix (e - places * (if base = 16 then 4 else 1))

end GuestHost.Wasm.Text
