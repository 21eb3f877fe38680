import GuestHost.Wasm.Operator

/-! Structured code: the nesting of blocks made explicit. A flat body that closes
all its blocks is one structured sequence, and flattening gives the body back. -/

namespace GuestHost.Wasm

/-- An instruction with the instructions it contains. -/
inductive Instr
  | plain (p : Plain)
  | block (t : BlockType) (body : List Instr)
  | loop (t : BlockType) (body : List Instr)
  /-- A condition with nothing to do when it fails. -/
  | when (t : BlockType) (body : List Instr)
  | choose (t : BlockType) (yes no : List Instr)
  | branch (depth : Nat)
  | branchIf (depth : Nat)
  | branchTable (depths : List Nat) (fallback : Nat)
  | ret
  | call (i : Nat)
  | callIndirect (type table : Nat)
  deriving Repr

namespace Instr

mutual

/-- The operators of an instruction. -/
def flatten : Instr → List Operator
  | plain p => [.plain p]
  | block t body => .block t :: flattenAll body ++ [.close]
  | loop t body => .loop t :: flattenAll body ++ [.close]
  | when t body => .cond t :: flattenAll body ++ [.close]
  | choose t yes no => .cond t :: flattenAll yes ++ .otherwise :: flattenAll no ++ [.close]
  | branch d => [.branch d]
  | branchIf d => [.branchIf d]
  | branchTable ds d => [.branchTable ds d]
  | ret => [.ret]
  | call i => [.call i]
  | callIndirect type table => [.callIndirect type table]

/-- The operators of a sequence. -/
def flattenAll : List Instr → List Operator
  | [] => []
  | i :: is => flatten i ++ flattenAll is

end

/-- A block that has not been closed yet. -/
inductive Unclosed
  | block (t : BlockType)
  | loop (t : BlockType)
  | cond (t : BlockType)
  | otherwise (t : BlockType) (yes : List Instr)

/-- Closes a block around its contents. -/
def Unclosed.close (body : List Instr) : Unclosed → Instr
  | .block t => .block t body
  | .loop t => .loop t body
  | .cond t => .when t body
  | .otherwise t yes => .choose t yes body

/-- Nests the rest of a body. `acc` holds the current sequence, last first, and
`outer` each unclosed block with the sequence it stands in. -/
def nestFrom (acc : List Instr) (outer : List (Unclosed × List Instr)) :
    List Operator → Option (List Instr)
  | [] => none
  | .plain p :: ops => nestFrom (.plain p :: acc) outer ops
  | .block t :: ops => nestFrom [] ((.block t, acc) :: outer) ops
  | .loop t :: ops => nestFrom [] ((.loop t, acc) :: outer) ops
  | .cond t :: ops => nestFrom [] ((.cond t, acc) :: outer) ops
  | .otherwise :: ops =>
    match outer with
    | (.cond t, before) :: outer => nestFrom [] ((.otherwise t acc.reverse, before) :: outer) ops
    | _ => none
  | .close :: ops =>
    match outer with
    | (b, before) :: outer => nestFrom (b.close acc.reverse :: before) outer ops
    | [] => if ops.isEmpty then some acc.reverse else none
  | .branch d :: ops => nestFrom (.branch d :: acc) outer ops
  | .branchIf d :: ops => nestFrom (.branchIf d :: acc) outer ops
  | .branchTable ds d :: ops => nestFrom (.branchTable ds d :: acc) outer ops
  | .ret :: ops => nestFrom (.ret :: acc) outer ops
  | .call i :: ops => nestFrom (.call i :: acc) outer ops
  | .callIndirect type table :: ops => nestFrom (.callIndirect type table :: acc) outer ops

/-- The structured form of a body, up to and with the operator that closes it. -/
def nest? (ops : List Operator) : Option (List Instr) := nestFrom [] [] ops

end Instr

end GuestHost.Wasm
