/-! The tags that mark the kind of a boxed guest value. -/

namespace GuestHost

/-- The kind of a guest value. Only nil, integer, number and string have a host form. -/
inductive Tag
  | nil
  | boolean
  | integer
  | number
  | string
  | function
  | userdata
  | thread
  | table
  deriving DecidableEq, Repr

namespace Tag

/-- The word stored in a box of this kind. -/
def code : Tag → Int32
  | nil => 0
  | boolean => 1
  | integer => 2
  | number => 3
  | string => 4
  | function => 5
  | userdata => 6
  | thread => 7
  | table => 8

def name : Tag → String
  | nil => "nil"
  | boolean => "boolean"
  | integer => "integer"
  | number => "number"
  | string => "string"
  | function => "function"
  | userdata => "userdata"
  | thread => "thread"
  | table => "table"

/-- Every tag, in the order of their codes. -/
def all : List Tag :=
  [nil, boolean, integer, number, string, function, userdata, thread, table]

/-- The kind a word stands for, if it stands for one. -/
def ofCode? (w : Int32) : Option Tag :=
  all.find? (fun t => t.code == w)

theorem ofCode?_code (t : Tag) : ofCode? t.code = some t := by
  cases t <;> decide

theorem code_of_ofCode? {w : Int32} {t : Tag} (h : ofCode? w = some t) : t.code = w := by
  have := List.find?_some h
  simpa using this

end Tag

end GuestHost
