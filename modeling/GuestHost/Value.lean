import GuestHost.Number.Layout

/-! Values that cross between host and guest, the result of a call, and their two
texts: one for display and one in JSON. -/

namespace GuestHost

/-- A value as the host sees it. -/
inductive Value
  | nil
  | integer (n : Int64)
  | number (x : Binary64)
  | text (s : String)
  deriving DecidableEq, Repr

/-- Escapes of a JSON string: quotes, backslashes and control characters. -/
def jsonEscape (c : Char) : List Char :=
  if c = '"' then ['\\', '"']
  else if c = '\\' then ['\\', '\\']
  else if c = '\n' then ['\\', 'n']
  else if c = '\r' then ['\\', 'r']
  else if c = '\t' then ['\\', 't']
  else if c = '\x08' then ['\\', 'b']
  else if c = '\x0c' then ['\\', 'f']
  else if c.toNat < 0x20 then
    ['\\', 'u', '0', '0', Nat.digitChar (c.toNat / 16), Nat.digitChar (c.toNat % 16)]
  else [c]

/-- A JSON string literal. -/
def jsonString (s : String) : List Char :=
  '"' :: s.toList.flatMap jsonEscape ++ ['"']

namespace Value

/-- Text shown to people; a text value stands for itself. -/
def display : Value → String
  | nil => "nil"
  | integer n => toString n.toInt
  | number x => NumberLayout.plain.render x
  | text s => s

/-- The value in JSON, where numbers are printed as is said. -/
def jsonChars (numbers : Binary64 → List Char) : Value → List Char
  | nil => "null".toList
  | integer n => (toString n.toInt).toList
  | number x => numbers x
  | text s => jsonString s

/-- Equality that compares numbers as numbers: zeros are equal and a NaN is not
equal to itself. -/
def same : Value → Value → Bool
  | number x, number y => !x.isNaN && !y.isNaN && (x == y || (x.isZero && y.isZero))
  | v, w => v == w

end Value

/-- What a call returns: nothing, one value, or several. -/
inductive Returned
  | empty
  | single (v : Value)
  | multiple (vs : List Value)
  deriving DecidableEq, Repr

namespace Returned

def ofList : List Value → Returned
  | [] => empty
  | [v] => single v
  | vs => multiple vs

def toList : Returned → List Value
  | empty => []
  | single v => [v]
  | multiple vs => vs

@[simp] theorem toList_ofList (vs : List Value) : (ofList vs).toList = vs := by
  match vs with
  | [] => rfl
  | [_] => rfl
  | _ :: _ :: _ => rfl

/-- The JSON line printed for a result: `null`, a bare value, or an array. -/
def jsonChars (numbers : Binary64 → List Char) : Returned → List Char
  | empty => "null".toList
  | single v => v.jsonChars numbers
  | multiple vs => '[' :: List.intercalate [','] (vs.map (Value.jsonChars numbers)) ++ [']']

def json (numbers : Binary64 → List Char) (r : Returned) : String := String.ofList (r.jsonChars numbers)

end Returned

end GuestHost
