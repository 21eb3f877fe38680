import GuestHost.Wasm.Module

/-! Which modules are valid. Bodies are checked operator by operator against the
types of values on the stack; after an operator that never goes on, the stack of the
innermost block holds whatever is asked of it. -/

namespace GuestHost.Wasm

/-- The surroundings in which operators are typed. -/
structure Context where
  types : List FuncType := []
  funcs : List FuncType := []
  tables : Nat := 0
  memories : Nat := 0
  globals : List GlobalType := []
  segments : Option Nat := none
  /-- Functions that a reference may be taken to. -/
  declared : List Nat := []
  locals : List ValType := []

/-- What opened a level of nesting. -/
inductive Opener
  | body
  | block
  | loop
  | cond
  | otherwise
  deriving DecidableEq, Repr

/-- One level of nesting: its type, the values on its own part of the stack (an
unknown value matches every type), and whether control cannot get here. -/
structure Level where
  opener : Opener
  type : FuncType
  stack : List (Option ValType) := []
  dead : Bool := false

/-- The values a branch to the level carries. -/
def Level.label (l : Level) : List ValType :=
  match l.opener with
  | .loop => l.type.params
  | _ => l.type.results

/-- The open levels, innermost first. -/
abbrev Levels := List Level

namespace Levels

/-- Takes a value of any type off the stack. -/
def popAny : Levels → Option (Option ValType × Levels)
  | [] => none
  | l :: ls =>
    match l.stack with
    | v :: rest => some (v, { l with stack := rest } :: ls)
    | [] => if l.dead then some (none, l :: ls) else none

/-- Takes a value of one type off the stack. -/
def pop (t : ValType) (ls : Levels) : Option Levels :=
  match ls.popAny with
  | some (none, ls) => some ls
  | some (some u, ls) => if u = t then some ls else none
  | none => none

def push (v : Option ValType) : Levels → Levels
  | [] => []
  | l :: ls => { l with stack := v :: l.stack } :: ls

/-- Takes values of the types off the stack, the last one first. -/
def popAll (ts : List ValType) (ls : Levels) : Option Levels :=
  ts.reverse.foldlM (fun ls t => ls.pop t) ls

def pushAll (ts : List ValType) (ls : Levels) : Levels :=
  ts.foldl (fun ls t => ls.push (some t)) ls

/-- Control does not reach past this point of the innermost level. -/
def kill : Levels → Levels
  | [] => []
  | l :: ls => { l with stack := [], dead := true } :: ls

/-- Takes `params` and leaves `results`. -/
def apply (params results : List ValType) (ls : Levels) : Option Levels :=
  (ls.popAll params).map (·.pushAll results)

def enter (opener : Opener) (t : FuncType) (ls : Levels) : Option Levels :=
  (ls.popAll t.params).map fun ls => pushAll t.params (⟨opener, t, [], false⟩ :: ls)

/-- Ends the innermost level, whose stack must hold its results and nothing else. -/
def leave (ls : Levels) : Option (Level × Levels) :=
  match ls with
  | [] => none
  | l :: _ =>
    match ls.popAll l.type.results with
    | some (l :: ls) => if l.stack.isEmpty then some (l, ls) else none
    | _ => none

end Levels

namespace Context

def loadType (c : Context) (k : Load) (m : MemArg) : Option FuncType :=
  if 0 < c.memories ∧ m.align ≤ k.widthLog2 then some ⟨[.i32], [k.result]⟩ else none

def storeType (c : Context) (k : Store) (m : MemArg) : Option FuncType :=
  if 0 < c.memories ∧ m.align ≤ k.widthLog2 then some ⟨[.i32, k.operand], []⟩ else none

/-- A numbered data segment exists, as far as the stated number of them tells. -/
def hasSegment (c : Context) (i : Nat) : Bool :=
  match c.segments with
  | some n => i < n
  | none => false

/-- The type of an operator that has one type wherever it stands. -/
def plainType (c : Context) : Plain → Option FuncType
  | .nop => some ⟨[], []⟩
  | .localGet i => c.locals[i]?.map fun t => ⟨[], [t]⟩
  | .localSet i => c.locals[i]?.map fun t => ⟨[t], []⟩
  | .localTee i => c.locals[i]?.map fun t => ⟨[t], [t]⟩
  | .globalGet i => c.globals[i]?.map fun g => ⟨[], [g.type]⟩
  | .globalSet i =>
    c.globals[i]?.bind fun g => if g.isMutable then some ⟨[g.type], []⟩ else none
  | .tableGet i => if i < c.tables then some ⟨[.i32], [.funcref]⟩ else none
  | .tableSet i => if i < c.tables then some ⟨[.i32, .funcref], []⟩ else none
  | .load k m => c.loadType k m
  | .store k m => c.storeType k m
  | .memorySize => if 0 < c.memories then some ⟨[], [.i32]⟩ else none
  | .memoryGrow => if 0 < c.memories then some ⟨[.i32], [.i32]⟩ else none
  | .memoryInit i =>
    if 0 < c.memories ∧ c.hasSegment i then some ⟨[.i32, .i32, .i32], []⟩ else none
  | .dataDrop i => if c.hasSegment i then some ⟨[], []⟩ else none
  | .i32Const _ => some ⟨[], [.i32]⟩
  | .i64Const _ => some ⟨[], [.i64]⟩
  | .f64Const _ => some ⟨[], [.f64]⟩
  | .refNull => some ⟨[], [.funcref]⟩
  | .refIsNull => some ⟨[.funcref], [.i32]⟩
  | .refFunc i => if i < c.funcs.length ∧ i ∈ c.declared then some ⟨[], [.funcref]⟩ else none
  | .numeric op => some ⟨op.signature.params, op.signature.results⟩
  | .unreachable => none
  | .drop => none
  | .select => none

/-- Types one plain operator. -/
def checkPlain (c : Context) (p : Plain) (ls : Levels) : Option Levels :=
  match p with
  | .unreachable => some ls.kill
  | .drop => ls.popAny.map (·.2)
  | .select => do
    let ls ← ls.pop .i32
    let (u, ls) ← ls.popAny
    let (v, ls) ← ls.popAny
    if u = some .funcref ∨ v = some .funcref then none
    else if u = none then some (ls.push v)
    else if v = none ∨ v = u then some (ls.push u)
    else none
  | p => (c.plainType p).bind fun t => ls.apply t.params t.results

/-- The values that a branch to the level at a depth carries. -/
def labelAt? (ls : Levels) (depth : Nat) : Option (List ValType) :=
  ls[depth]?.map Level.label

/-- Types one operator, given the open levels before it. -/
def checkOperator (c : Context) (op : Operator) (ls : Levels) : Option Levels :=
  match op with
  | .plain p => c.checkPlain p ls
  | .block t => (t.resolve? c.types).bind fun t => ls.enter .block t
  | .loop t => (t.resolve? c.types).bind fun t => ls.enter .loop t
  | .cond t => do
    let t ← t.resolve? c.types
    let ls ← ls.pop .i32
    ls.enter .cond t
  | .otherwise => do
    let (l, ls) ← ls.leave
    if l.opener = .cond then
      some (Levels.pushAll l.type.params (⟨.otherwise, l.type, [], false⟩ :: ls))
    else none
  | .close => do
    let (l, ls) ← ls.leave
    if l.opener = .cond ∧ l.type.params ≠ l.type.results then none
    else some (ls.pushAll l.type.results)
  | .branch d => do
    let ts ← labelAt? ls d
    let ls ← ls.popAll ts
    some ls.kill
  | .branchIf d => do
    let ts ← labelAt? ls d
    let ls ← ls.pop .i32
    ls.apply ts ts
  | .branchTable ds d => do
    let ts ← labelAt? ls d
    let ls ← ls.pop .i32
    let fits (d : Nat) : Bool :=
      match labelAt? ls d with
      | some us => us.length == ts.length && (ls.popAll us).isSome
      | none => false
    if ds.all fits then
      let ls ← ls.popAll ts
      some ls.kill
    else none
  | .ret => do
    let l ← ls.getLast?
    let ls ← ls.popAll l.type.results
    some ls.kill
  | .call i => c.funcs[i]?.bind fun t => ls.apply t.params t.results
  | .callIndirect type table =>
    if table < c.tables then do
      let t ← c.types[type]?
      let ls ← ls.pop .i32
      ls.apply t.params t.results
    else none

/-- Types the operators of a body: the one that closes the outermost level is the last. -/
def checkOperators (c : Context) : List Operator → Levels → Bool
  | [], ls => ls.isEmpty
  | _ :: _, [] => false
  | op :: ops, ls =>
    match c.checkOperator op ls with
    | some ls => checkOperators c ops ls
    | none => false

/-- The number of locals a function may have. -/
def maxLocals : Nat := 50000

def checkBody (c : Context) (t : FuncType) (b : Body) : Bool :=
  t.params.length + b.locals.foldl (fun n l => n + l.1) 0 ≤ maxLocals &&
    { c with locals := t.params ++ b.localTypes }.checkOperators b.code
      [⟨.body, ⟨[], t.results⟩, [], false⟩]

/-- Operators that may stand in a constant expression. -/
def isConstant (c : Context) : Operator → Bool
  | .plain (.globalGet i) =>
    match c.globals[i]? with
    | some g => !g.isMutable
    | none => false
  | .plain (.i32Const _) | .plain (.i64Const _) | .plain (.f64Const _) | .plain .refNull
  | .plain (.refFunc _) => true
  | .plain (.numeric op) => op ∈ [.i32Add, .i32Sub, .i32Mul, .i64Add, .i64Mul]
  | _ => false

/-- A constant expression of one type. -/
def checkConstant (c : Context) (t : ValType) (ops : List Operator) : Bool :=
  ops.all c.isConstant && c.checkOperators (ops ++ [.close]) [⟨.body, ⟨[], [t]⟩, [], false⟩]

end Context

/-- A range whose upper bound, if it has one, is not below the lower. -/
def Limits.isOrdered (l : Limits) : Bool :=
  match l.max with
  | none => true
  | some max => l.min ≤ max

def Limits.isMemory (l : Limits) : Bool :=
  l.isOrdered && l.min ≤ maxPages && (l.max.all (· ≤ maxPages))

def Limits.isTable (l : Limits) : Bool := l.isOrdered && l.min ≤ maxTable

namespace Module

/-- Functions whose references are taken outside of bodies. -/
def declaredFuncs (m : Module) : List Nat :=
  let inInit (ops : List Operator) : List Nat :=
    ops.filterMap fun | .plain (.refFunc i) => some i | _ => none
  m.elems.flatMap Elem.funcs ++
    m.exports.filterMap (fun e => if e.kind = .func then some e.index else none) ++
    m.globals.flatMap (fun g => inInit g.init)

/-- The surroundings of the module's bodies, if every function has a type. -/
def context? (m : Module) : Option Context := do
  let funcs ← m.funcTypes.mapM fun i => m.types[i]?
  some
    { types := m.types
      funcs
      tables := m.tableTypes.length
      memories := m.memoryTypes.length
      globals := m.globalTypes
      segments := m.dataCount
      declared := m.declaredFuncs }

/-- Each global's first value may use the globals before it. -/
def checkGlobals (c : Context) : List GlobalType → List Global → Bool
  | _, [] => true
  | before, g :: rest =>
    { c with globals := before }.checkConstant g.type.type g.init &&
      checkGlobals c (before ++ [g.type]) rest

def checkElem (c : Context) (e : Elem) : Bool :=
  e.funcs.all (· < c.funcs.length) &&
    match e.mode with
    | .active table offset => table.getD 0 < c.tables && c.checkConstant .i32 offset
    | _ => true

def checkData (c : Context) (d : Data) : Bool :=
  match d.mode with
  | .active memory offset => memory < c.memories && c.checkConstant .i32 offset
  | .passive => true

def checkExport (c : Context) (e : Export) : Bool :=
  match e.kind with
  | .func => e.index < c.funcs.length
  | .table => e.index < c.tables
  | .memory => e.index < c.memories
  | .global => e.index < c.globals.length

def checkStart (c : Context) : Option Nat → Bool
  | none => true
  | some i => c.funcs[i]? == some ⟨[], []⟩

/-- Whether the module is valid. -/
def isValid (m : Module) : Bool :=
  match m.context? with
  | none => false
  | some c =>
    decide (m.funcTypes.length ≤ maxFuncs) &&
      m.tableTypes.all Limits.isTable && m.memoryTypes.all Limits.isMemory &&
      checkGlobals c m.importedGlobals m.globals &&
      m.elems.all (checkElem c) && m.data.all (checkData c) &&
      m.exports.all (checkExport c) && decide ((m.exports.map Export.name).Nodup) &&
      checkStart c m.start && m.funcs.length == m.bodies.length &&
      (m.funcs.zip m.bodies).all fun (i, b) =>
        match m.types[i]? with
        | some t => c.checkBody t b
        | none => false

end Module

end GuestHost.Wasm
