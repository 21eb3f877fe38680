import GuestHost.Machine.Arithmetic
import GuestHost.Machine.Store

/-! A function in the middle of its run, and the operators that need nothing but its
stack, its locals, and the items of its instance. -/

namespace GuestHost.Machine

open Wasm

/-- A block that was entered. Its body has a stack of its own; `below` is what stood
under it. A branch goes on with `target`, the end of the body with `rest`. -/
structure Label where
  /-- The number of values a branch carries. -/
  arity : Nat
  target : List Instr
  rest : List Instr
  below : List Val

/-- A running function: the instance it belongs to, the number of its results, and
how many calls are under way below it. Stacks are listed from the top, labels from
the innermost. -/
structure Frame where
  inst : Nat
  arity : Nat
  depth : Nat
  locals : List Val
  stack : List Val := []
  code : List Instr
  labels : List Label := []

namespace Frame

/-- The frame with a value more on its stack. -/
def push (f : Frame) (v : Val) : Frame := { f with stack := v :: f.stack }

/-- Reads a value from the memory of the frame's instance. -/
def load (f : Frame) (s : Store) (k : Load) (m : MemArg) : Except Trap Frame :=
  match f.stack, s.memory? f.inst with
  | .i32 a :: stack, some memory =>
    match memory.load k (a.toNat + m.offset) with
    | .ok v => .ok { f with stack := v :: stack }
    | .error t => .error t
  | _, _ => .error .illTyped

/-- Replaces the memory of an instance by a function of it. -/
def withMemory (s : Store) (inst : Nat) (g : Memory → Except Trap Memory) : Except Trap Store :=
  match s.memoryAddr? inst with
  | none => .error .illTyped
  | some a =>
    match s.memories[a]? with
    | none => .error .illTyped
    | some m =>
      match g m with
      | .ok m => .ok { s with memories := s.memories.setIfInBounds a m }
      | .error t => .error t

/-- Writes a value to the memory of the frame's instance. -/
def store (f : Frame) (s : Store) (k : Wasm.Store) (m : MemArg) : Except Trap (Frame × Store) :=
  match f.stack with
  | v :: .i32 a :: stack =>
    match withMemory s f.inst (·.store k (a.toNat + m.offset) v) with
    | .ok s => .ok ({ f with stack }, s)
    | .error t => .error t
  | _ => .error .illTyped

/-- Grows the memory of the frame's instance; the answer is its size before, or all
ones if it may not grow that far. -/
def grow (f : Frame) (s : Store) : Except Trap (Frame × Store) :=
  match f.stack, s.memoryAddr? f.inst with
  | .i32 n :: stack, some a =>
    match s.memories[a]? with
    | none => .error .illTyped
    | some m =>
      match m.grow? n.toNat with
      | none => .ok ({ f with stack := .i32 0xFFFFFFFF :: stack }, s)
      | some grown =>
        .ok ({ f with stack := .i32 (UInt32.ofNat m.pages) :: stack },
          { s with memories := s.memories.setIfInBounds a grown })
  | _, _ => .error .illTyped

/-- Copies a part of a data segment to the memory of the frame's instance. -/
def memoryInit (f : Frame) (s : Store) (segment : Nat) : Except Trap (Frame × Store) :=
  match f.stack, s.instances[f.inst]?.bind (·.data[segment]?) with
  | .i32 n :: .i32 source :: .i32 target :: stack, some bytes =>
    if source.toNat + n.toNat ≤ bytes.length then
      let part := (bytes.drop source.toNat).take n.toNat
      let copy (m : Memory) : Except Trap Memory :=
        match m.write? target.toNat part with
        | some m => .ok m
        | none => .error .memoryBounds
      match withMemory s f.inst copy with
      | .ok s => .ok ({ f with stack }, s)
      | .error t => .error t
    else .error .memoryBounds
  | _, _ => .error .illTyped

/-- Leaves nothing to copy from in a data segment. -/
def dataDrop (s : Store) (inst segment : Nat) : Store :=
  { s with instances := s.instances.modify inst fun i =>
    { i with data := i.data.setIfInBounds segment [] } }

/-- Reads or writes an entry of a table of the frame's instance. -/
def tableGet (f : Frame) (s : Store) (table : Nat) : Except Trap Frame :=
  match f.stack, (s.tableAddr? f.inst table).bind (s.tables[·]?) with
  | .i32 i :: stack, some t =>
    match t.entries[i.toNat]? with
    | some r => .ok { f with stack := .ref r :: stack }
    | none => .error .tableBounds
  | _, _ => .error .illTyped

def tableSet (f : Frame) (s : Store) (table : Nat) : Except Trap (Frame × Store) :=
  match f.stack, s.tableAddr? f.inst table with
  | .ref r :: .i32 i :: stack, some a =>
    match s.tables[a]? with
    | none => .error .illTyped
    | some t =>
      if i.toNat < t.entries.size then
        let t := { t with entries := t.entries.setIfInBounds i.toNat r }
        .ok ({ f with stack }, { s with tables := s.tables.setIfInBounds a t })
      else .error .tableBounds
  | _, _ => .error .illTyped

/-- Replaces a global's value by one of the same type. -/
def globalSet (f : Frame) (s : Store) (i : Nat) : Except Trap (Frame × Store) :=
  match f.stack, s.globalAddr? f.inst i with
  | value :: stack, some a =>
    if (s.globals[a]?).any fun g => g.value.type == value.type then
      .ok ({ f with stack }, { s with globals := s.globals.modify a fun g => { g with value } })
    else .error .illTyped
  | _, _ => .error .illTyped

/-- Operators that change nothing but the frame. -/
def quiet (f : Frame) (s : Store) (p : Plain) : Except Trap Frame :=
  match p, f.stack with
  | .unreachable, _ => .error .unreachable
  | .nop, _ => .ok f
  | .drop, _ :: stack => .ok { f with stack }
  | .select, .i32 c :: b :: a :: stack => .ok { f with stack := (if c = 0 then b else a) :: stack }
  | .localGet i, _ =>
    match f.locals[i]? with
    | some v => .ok (f.push v)
    | none => .error .illTyped
  | .localSet i, v :: stack => .ok { f with locals := f.locals.set i v, stack }
  | .localTee i, v :: _ => .ok { f with locals := f.locals.set i v }
  | .globalGet i, _ =>
    match (s.globalAddr? f.inst i).bind (s.globals[·]?) with
    | some g => .ok (f.push g.value)
    | none => .error .illTyped
  | .tableGet i, _ => f.tableGet s i
  | .load k m, _ => f.load s k m
  | .memorySize, _ =>
    match s.memory? f.inst with
    | some m => .ok (f.push (.i32 (UInt32.ofNat m.pages)))
    | none => .error .illTyped
  | .i32Const w, _ => .ok (f.push (.i32 w))
  | .i64Const w, _ => .ok (f.push (.i64 w))
  | .f64Const x, _ => .ok (f.push (.f64 x))
  | .refNull, _ => .ok (f.push (.ref none))
  | .refIsNull, .ref r :: stack => .ok { f with stack := .ofBool r.isNone :: stack }
  | .refFunc i, _ =>
    match s.funcAddr? f.inst i with
    | some a => .ok (f.push (.ref (some a)))
    | none => .error .illTyped
  | .numeric op, stack =>
    match numeric op stack with
    | .ok stack => .ok { f with stack }
    | .error t => .error t
  | _, _ => .error .illTyped

/-- Runs an operator that goes on with the next one. -/
def plain (f : Frame) (s : Store) (p : Plain) : Except Trap (Frame × Store) :=
  match p with
  | .store k m => f.store s k m
  | .memoryGrow => f.grow s
  | .memoryInit i => f.memoryInit s i
  | .dataDrop i => .ok (f, dataDrop s f.inst i)
  | .tableSet i => f.tableSet s i
  | .globalSet i => f.globalSet s i
  | p =>
    match f.quiet s p with
    | .ok f => .ok (f, s)
    | .error t => .error t

/-- The frame inside a block whose body comes next. A branch to the block leads to
what follows it, or to `again`, the block itself, if it is a loop. -/
def enter (f : Frame) (types : List FuncType) (t : BlockType) (body : List Instr)
    (again : Option Instr) : Except Trap Frame :=
  match t.resolve? types with
  | none => .error .illTyped
  | some t =>
    let n := t.params.length
    let label : Label :=
      match again with
      | none => ⟨t.results.length, f.code, f.code, f.stack.drop n⟩
      | some loop => ⟨n, loop :: f.code, f.code, f.stack.drop n⟩
    .ok { f with stack := f.stack.take n, code := body, labels := label :: f.labels }

/-- The values that a function returns, in order. -/
def results (f : Frame) : List Val := (f.stack.take f.arity).reverse

/-- Where a branch leads: to another point of the function, or out of it. -/
inductive Target
  | inside (f : Frame)
  | out (results : List Val)

/-- Branches to the label at a depth. The label past the outermost is the function's. -/
def branch (f : Frame) (depth : Nat) : Target :=
  match f.labels.drop depth with
  | l :: labels =>
    .inside { f with stack := f.stack.take l.arity ++ l.below, code := l.target, labels }
  | [] => .out f.results

/-- Comes to the end of the innermost block, or of the function. -/
def finish (f : Frame) : Target :=
  match f.labels with
  | l :: labels => .inside { f with stack := f.stack ++ l.below, code := l.rest, labels }
  | [] => .out f.results

end Frame

end GuestHost.Machine
