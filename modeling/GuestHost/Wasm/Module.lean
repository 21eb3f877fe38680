import GuestHost.Wasm.Operator

/-! A module as data: its items in index order and the names it gives them. -/

namespace GuestHost.Wasm

/-- The kinds of item that modules import and export. -/
inductive ExternKind
  | func
  | table
  | memory
  | global
  deriving DecidableEq, Repr

namespace ExternKind

def name : ExternKind → String
  | func => "func"
  | table => "table"
  | memory => "memory"
  | global => "global"

def code : ExternKind → UInt8
  | func => 0
  | table => 1
  | memory => 2
  | global => 3

def all : List ExternKind := [func, table, memory, global]

end ExternKind

/-- What an import must be. Functions give their type by index; the elements of a
table are function references. -/
inductive ImportType
  | func (type : Nat)
  | table (limits : Limits)
  | memory (limits : Limits)
  | global (type : GlobalType)
  deriving DecidableEq, Repr

structure Import where
  space : String
  name : String
  type : ImportType
  deriving DecidableEq, Repr

/-- A global of the module, with the operators that compute its first value. -/
structure Global where
  type : GlobalType
  init : List Operator
  deriving DecidableEq, Repr

structure Export where
  name : String
  kind : ExternKind
  index : Nat
  deriving DecidableEq, Repr

/-- When the entries of an element segment are copied to a table. -/
inductive ElemMode
  /-- At once. The first table need not be named. -/
  | active (table : Option Nat) (offset : List Operator)
  | passive
  /-- Never: the segment only declares that references to its functions are taken. -/
  | declared
  deriving DecidableEq, Repr

structure Elem where
  mode : ElemMode
  funcs : List Nat
  deriving DecidableEq, Repr

/-- When the bytes of a data segment are copied to a memory. -/
inductive DataMode
  | active (memory : Nat) (offset : List Operator)
  | passive
  deriving DecidableEq, Repr

structure Data where
  mode : DataMode
  bytes : List UInt8
  deriving DecidableEq, Repr

/-- A function body: locals in runs of one type, and operators up to and with the
one that closes it. -/
structure Body where
  locals : List (Nat × ValType)
  code : List Operator
  deriving DecidableEq, Repr

/-- The types of a body's locals, one by one. -/
def Body.localTypes (b : Body) : List ValType :=
  b.locals.flatMap fun (n, t) => List.replicate n t

/-- Names by index. -/
abbrev NameMap := List (Nat × String)

/-- The names a module gives to its items, for listings only. -/
structure Names where
  module : Option String := none
  funcs : NameMap := []
  locals : List (Nat × NameMap) := []
  labels : List (Nat × NameMap) := []
  types : NameMap := []
  tables : NameMap := []
  memories : NameMap := []
  globals : NameMap := []
  elems : NameMap := []
  data : NameMap := []
  deriving DecidableEq, Repr

/-- The sections of a module's binary form, in order of their place. -/
inductive Section
  | types
  | imports
  | funcs
  | tables
  | memories
  | globals
  | exports
  | start
  | elems
  | dataCount
  | code
  | data
  deriving DecidableEq, Repr

namespace Section

/-- The number that marks the section. -/
def number : Section → UInt8
  | types => 1
  | imports => 2
  | funcs => 3
  | tables => 4
  | memories => 5
  | globals => 6
  | exports => 7
  | start => 8
  | elems => 9
  | dataCount => 12
  | code => 10
  | data => 11

/-- The place in the order that sections keep. -/
def place : Section → Nat
  | types => 1
  | imports => 2
  | funcs => 3
  | tables => 4
  | memories => 5
  | globals => 6
  | exports => 7
  | start => 8
  | elems => 9
  | dataCount => 10
  | code => 11
  | data => 12

def name : Section → String
  | types => "type"
  | imports => "import"
  | funcs => "func"
  | tables => "table"
  | memories => "memory"
  | globals => "global"
  | exports => "export"
  | start => "start"
  | elems => "elem"
  | dataCount => "data"
  | code => "code"
  | data => "data"

def all : List Section :=
  [types, imports, funcs, tables, memories, globals, exports, start, elems, dataCount, code, data]

end Section

/-- A custom section other than the names, and the section it follows, if any. -/
structure Custom where
  name : String
  bytes : List UInt8
  after : Option Section
  deriving DecidableEq, Repr

/-- A module. Functions give their types by index; their bodies come in the same order. -/
structure Module where
  types : List FuncType := []
  imports : List Import := []
  funcs : List Nat := []
  tables : List Limits := []
  memories : List Limits := []
  globals : List Global := []
  exports : List Export := []
  start : Option Nat := none
  elems : List Elem := []
  dataCount : Option Nat := none
  bodies : List Body := []
  data : List Data := []
  names : Names := {}
  customs : List Custom := []
  deriving DecidableEq, Repr

namespace Module

/-- Type indices of all functions, the imported ones first. -/
def funcTypes (m : Module) : List Nat :=
  m.imports.filterMap (fun i => match i.type with | .func t => some t | _ => none) ++ m.funcs

/-- Limits of all tables, the imported ones first. -/
def tableTypes (m : Module) : List Limits :=
  m.imports.filterMap (fun i => match i.type with | .table l => some l | _ => none) ++ m.tables

/-- Limits of all memories, the imported ones first. -/
def memoryTypes (m : Module) : List Limits :=
  m.imports.filterMap (fun i => match i.type with | .memory l => some l | _ => none) ++ m.memories

/-- Types of all imported globals. -/
def importedGlobals (m : Module) : List GlobalType :=
  m.imports.filterMap fun i => match i.type with | .global t => some t | _ => none

/-- Types of all globals, the imported ones first. -/
def globalTypes (m : Module) : List GlobalType :=
  m.importedGlobals ++ m.globals.map Global.type

/-- The number of imported functions, and so the index of the first own one. -/
def importedFuncs (m : Module) : Nat :=
  m.imports.countP fun i => match i.type with | .func _ => true | _ => false

end Module

end GuestHost.Wasm
