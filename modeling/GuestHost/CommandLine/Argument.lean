import GuestHost.Number.Reading
import GuestHost.Value

/-! The value that an argument of the command line stands for. -/

namespace GuestHost

/-- A decimal numeral, or a name of an infinity or of no number, in any case. -/
def Binary64.ofArgument? (cs : List Char) : Option Binary64 :=
  let (negative, body) := splitSign cs
  let word := body.map Char.toLower
  if word = "inf".toList ∨ word = "infinity".toList then some (.infinity negative)
  else if word = "nan".toList then some .nan
  else (Numeral.ofChars? cs).map Numeral.toBinary64

/-- Nil, an integer of 64 bits, a number, or else the text itself. -/
def Value.ofArgument (s : String) : Value :=
  if s = "nil" then .nil
  else
    match int64? s.toList with
    | some n => .integer n
    | none =>
      match Binary64.ofArgument? s.toList with
      | some x => .number x
      | none => .text s

end GuestHost
