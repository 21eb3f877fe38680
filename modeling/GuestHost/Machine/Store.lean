import GuestHost.Capability.Basic
import GuestHost.Machine.Memory
import GuestHost.Wasm.Instr
import GuestHost.Wasm.Module

/-! Everything that modules of one session have brought to life. Items are never
removed: an address stands for the same item for the life of the store. -/

namespace GuestHost.Machine

open Wasm

/-- A function: code of a module instance, or a capability of the host. -/
inductive Func
  | guest (type : FuncType) (inst : Nat) (locals : List ValType) (code : List Instr)
  | host (c : Capability)

def Func.type : Func → FuncType
  | guest t _ _ _ => t
  | host c => c.type

/-- A table of function references. -/
structure Table where
  entries : Array (Option Nat)
  max : Option Nat

structure Global where
  type : GlobalType
  value : Val

/-- The address of an item that modules can share. -/
inductive Extern
  | func (a : Nat)
  | table (a : Nat)
  | memory (a : Nat)
  | global (a : Nat)
  deriving DecidableEq, Repr

/-- A module brought to life: the addresses of its items by index, what it exports,
and the data segments it can still copy from. -/
structure Instance where
  types : List FuncType := []
  funcs : Array Nat := #[]
  tables : Array Nat := #[]
  memories : Array Nat := #[]
  globals : Array Nat := #[]
  exports : List (String × Extern) := []
  data : Array (List UInt8) := #[]

/-- What an instance exports under a name. -/
def Instance.find? (i : Instance) (name : String) : Option Extern := i.exports.lookup name

structure Store where
  funcs : Array Func := #[]
  tables : Array Table := #[]
  memories : Array Memory := #[]
  globals : Array Global := #[]
  instances : Array Instance := #[]
  host : Host := {}

namespace Store

def mapHost (s : Store) (f : Host → Host) : Store := { s with host := f s.host }

def record (s : Store) (e : Event) : Store := s.mapHost fun h => h.record e

/-- Adds a function; its address is the number of functions before it. -/
def addFunc (s : Store) (f : Func) : Store := { s with funcs := s.funcs.push f }

/-- The address of an instance's function. -/
def funcAddr? (s : Store) (inst i : Nat) : Option Nat := s.instances[inst]?.bind (·.funcs[i]?)

def tableAddr? (s : Store) (inst i : Nat) : Option Nat := s.instances[inst]?.bind (·.tables[i]?)

/-- The address of an instance's memory. -/
def memoryAddr? (s : Store) (inst : Nat) : Option Nat := s.instances[inst]?.bind (·.memories[0]?)

def globalAddr? (s : Store) (inst i : Nat) : Option Nat := s.instances[inst]?.bind (·.globals[i]?)

/-- An instance's memory. -/
def memory? (s : Store) (inst : Nat) : Option Memory := (s.memoryAddr? inst).bind (s.memories[·]?)

/-- What an instance exports under a name. -/
def export? (s : Store) (inst : Nat) (name : String) : Option Extern :=
  s.instances[inst]?.bind (·.find? name)

/-- The address of a function that an instance exports under a name. -/
def exportedFunc? (s : Store) (inst : Nat) (name : String) : Option Nat :=
  match s.export? inst name with
  | some (.func a) => some a
  | _ => none

/-- The function at an address has this type. -/
def hasType (s : Store) (func : Nat) (t : FuncType) : Bool :=
  match s.funcs[func]? with
  | some f => f.type == t
  | none => false

end Store

end GuestHost.Machine
