import Std.Data.ExtTreeMap

/-! Named definitions in namespaces. Two registries are equal when they define the
same names alike, and both levels list their names in byte order. -/

namespace GuestHost

/-- A map from namespaces to maps from names. -/
structure Registry (α : Type) where
  spaces : Std.ExtTreeMap String (Std.ExtTreeMap String α) := {}

namespace Registry

variable {α β : Type}

def empty : Registry α := {}

/-- The names of one namespace with their definitions. -/
def space (r : Registry α) (ns : String) : Std.ExtTreeMap String α := r.spaces.getD ns {}

def get? (r : Registry α) (ns name : String) : Option α := (r.space ns)[name]?

/-- Defines a name and returns what it replaces. -/
def insert (r : Registry α) (ns name : String) (a : α) : Option α × Registry α :=
  (r.get? ns name, ⟨r.spaces.insert ns ((r.space ns).insert name a)⟩)

/-- The registry with one more definition. -/
def add (r : Registry α) (ns name : String) (a : α) : Registry α := (r.insert ns name a).2

def namespaces (r : Registry α) : List String := r.spaces.keys

def names (r : Registry α) (ns : String) : List String := (r.space ns).keys

/-- No namespace defines anything. -/
def isEmpty (r : Registry α) : Bool := r.spaces.toList.all fun (_, fs) => fs.isEmpty

/-- Overrides win over defaults and add names, but only in namespaces that the
defaults have. -/
def override (defaults overrides : Registry α) : Registry α :=
  ⟨defaults.spaces.map fun ns fs => fs ∪ overrides.space ns⟩

/-- Every definition with its namespace and name, in order. -/
def toList (r : Registry α) : List (String × String × α) :=
  r.spaces.toList.flatMap fun (ns, fs) => fs.toList.map fun (name, a) => (ns, name, a)

/-- A character of a quoted name. -/
def quoteChar (c : Char) : List Char :=
  if c = '"' then ['\\', '"']
  else if c = '\\' then ['\\', '\\']
  else if c = '\n' then ['\\', 'n']
  else if c = '\r' then ['\\', 'r']
  else if c = '\t' then ['\\', 't']
  else if c.toNat = 0 then ['\\', '0']
  else if c.toNat < 0x20 ∨ (0x7F ≤ c.toNat ∧ c.toNat < 0xA0) then
    ['\\', 'u', '\x7b'] ++ Nat.toDigits 16 c.toNat ++ ['\x7d']
  else [c]

def quote (s : String) : List Char := '"' :: s.toList.flatMap quoteChar ++ ['"']

/-- A one-line summary: each namespace with the list of its names. -/
def summary (r : Registry α) : String :=
  let entry (ns : String) : List Char :=
    quote ns ++ [':', ' ', '['] ++ List.intercalate [',', ' '] ((r.names ns).map quote) ++ [']']
  String.ofList
    ('\x7b' :: List.intercalate [',', ' '] (r.namespaces.map entry) ++ ['\x7d'])

end Registry

end GuestHost
