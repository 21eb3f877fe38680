import GuestHost.Wasm.Instr
import GuestHost.Wasm.Module

/-! The support module that scripts share. Guest values are references into its
memory, and zero is nil. A box holds its tag at offset 0, the length of its payload
at 4 and the payload from 8 on; an array holds its length at 0 and references from 4
on. Memory is only ever handed out, upward from address 16. -/

namespace GuestHost.Support

open Wasm

abbrev get (i : Nat) : Instr := .plain (.localGet i)
abbrev put (i : Nat) : Instr := .plain (.localSet i)
abbrev const (w : UInt32) : Instr := .plain (.i32Const w)
abbrev num (op : Numeric) : Instr := .plain (.numeric op)
abbrev load (k : Load) (offset : Nat) : Instr := .plain (.load k ⟨k.widthLog2, offset⟩)
abbrev store (k : Store) (offset : Nat) : Instr := .plain (.store k ⟨k.widthLog2, offset⟩)
abbrev trap : Instr := .plain .unreachable

/-! Indices of the functions, the imported ones first. -/

abbrev bufferNew : Nat := 0
abbrev bufferSet : Nat := 1
abbrev bufferGet : Nat := 2
abbrev bufferSize : Nat := 3
abbrev alloc : Nat := 4
abbrev box : Nat := 5
abbrev expect : Nat := 6
abbrev stringNew : Nat := 12
abbrev slot : Nat := 17

/-- The global that holds the end of the memory handed out so far. -/
abbrev heap : Nat := 0

/-- Hands out `size` bytes at the next multiple of eight, and grows the memory page
by page until they fit. -/
def allocCode : List Instr :=
  [.plain (.globalGet heap), const 7, num .i32Add, const 0xFFFFFFF8, num .i32And, put 1,
   get 1, get 0, num .i32Add, put 2,
   .block .empty
    [.loop .empty
      [get 2, .plain .memorySize, const 16, num .i32Shl, num .i32LeU, .branchIf 1,
       const 1, .plain .memoryGrow, const 0xFFFFFFFF, num .i32Eq, .when .empty [trap],
       .branch 0]],
   get 2, .plain (.globalSet heap), get 1]

/-- A box with a tag and room for a payload of a length. -/
def boxCode : List Instr :=
  [get 1, const 8, num .i32Add, .call alloc, put 2,
   get 2, get 0, store .i32 0,
   get 2, get 1, store .i32 4,
   get 2]

/-- Goes on only if the reference is not nil and its box has the tag. -/
def expectCode : List Instr :=
  [get 0, num .i32Eqz, .when .empty [trap],
   get 0, load .i32 0, get 1, num .i32Ne, .when .empty [trap]]

/-- The tag of a reference; nil has the tag zero. -/
def getTypeNumCode : List Instr :=
  [get 0, num .i32Eqz, .choose (.value .i32) [const 0] [get 0, load .i32 0]]

def boxIntegerCode : List Instr :=
  [const 2, const 8, .call box, put 1, get 1, get 0, store .i64 8, get 1]

def toHostIntegerCode : List Instr :=
  [get 0, const 2, .call expect, get 0, load .i64 8]

def boxNumberCode : List Instr :=
  [const 3, const 8, .call box, put 1, get 1, get 0, store .f64 8, get 1]

def toHostNumberCode : List Instr :=
  [get 0, const 3, .call expect, get 0, load .f64 8]

/-- A string box with room for a number of bytes. -/
def stringNewCode : List Instr := [const 4, get 0, .call box]

/-- The address of a string's bytes. -/
def stringBytesCode : List Instr :=
  [get 0, const 4, .call expect, get 0, const 8, num .i32Add]

def stringLenCode : List Instr :=
  [get 0, const 4, .call expect, get 0, load .i32 4]

/-- A string box with the bytes of a host buffer, copied one by one. -/
def boxStringCode : List Instr :=
  [get 0, .call bufferSize, put 1,
   get 1, .call stringNew, put 2,
   .block .empty
    [.loop .empty
      [get 3, get 1, num .i32GeU, .branchIf 1,
       get 2, get 3, num .i32Add, get 0, get 3, .call bufferGet, store .i32To8 8,
       get 3, const 1, num .i32Add, put 3,
       .branch 0]],
   get 2]

/-- A host buffer with the bytes of a string box, copied one by one. -/
def toHostStringCode : List Instr :=
  [get 0, const 4, .call expect,
   get 0, load .i32 4, put 1,
   get 1, .call bufferNew, put 2,
   .block .empty
    [.loop .empty
      [get 3, get 1, num .i32GeU, .branchIf 1,
       get 2, get 3, get 0, get 3, num .i32Add, load .i32From8U 8, .call bufferSet,
       get 3, const 1, num .i32Add, put 3,
       .branch 0]],
   get 2]

/-- The address of an array's element; the index must be below the length. -/
def slotCode : List Instr :=
  [get 0, num .i32Eqz, .when .empty [trap],
   get 1, get 0, load .i32 0, num .i32GeU, .when .empty [trap],
   get 0, const 4, num .i32Add, get 1, const 2, num .i32Shl, num .i32Add]

def arrayCreateCode : List Instr :=
  [const 4, get 0, const 2, num .i32Shl, num .i32Add, .call alloc, put 1,
   get 1, get 0, store .i32 0,
   get 1]

def arraySetCode : List Instr := [get 0, get 1, .call slot, get 2, store .i32 0]

def arrayGetCode : List Instr := [get 0, get 1, .call slot, load .i32 0]

/-- The length of an array; nil has none. -/
def arraySizeCode : List Instr :=
  [get 0, num .i32Eqz, .choose (.value .i32) [const 0] [get 0, load .i32 0]]

/-- A function of the module: the index of its type, its locals, its code, and the
names of its variables and blocks. -/
structure Function where
  type : Nat
  locals : List (Nat × ValType)
  code : List Instr
  params : List String
  blocks : List String := []

/-- The module's own functions, in order of their indices from four on. -/
def functions : List Function :=
  [⟨0, [(2, .i32)], allocCode, ["size", "ptr", "end"], ["fits", "grow"]⟩,
   ⟨2, [(1, .i32)], boxCode, ["tag", "len", "v"], []⟩,
   ⟨3, [], expectCode, ["v", "tag"], []⟩,
   ⟨0, [], getTypeNumCode, ["v"], []⟩,
   ⟨4, [(1, .i32)], boxIntegerCode, ["n", "v"], []⟩,
   ⟨5, [], toHostIntegerCode, ["v"], []⟩,
   ⟨6, [(1, .i32)], boxNumberCode, ["x", "v"], []⟩,
   ⟨7, [], toHostNumberCode, ["v"], []⟩,
   ⟨0, [], stringNewCode, ["len"], []⟩,
   ⟨0, [], stringBytesCode, ["v"], []⟩,
   ⟨0, [], stringLenCode, ["v"], []⟩,
   ⟨0, [(3, .i32)], boxStringCode, ["buf", "len", "v", "i"], ["done", "copy"]⟩,
   ⟨0, [(3, .i32)], toHostStringCode, ["v", "len", "buf", "i"], ["done", "copy"]⟩,
   ⟨2, [], slotCode, ["array", "index"], []⟩,
   ⟨0, [(1, .i32)], arrayCreateCode, ["len", "array"], []⟩,
   ⟨1, [], arraySetCode, ["array", "index", "v"], []⟩,
   ⟨2, [], arrayGetCode, ["array", "index"], []⟩,
   ⟨0, [], arraySizeCode, ["array"], []⟩]

/-- The body of a function in flat form. -/
def Function.body (f : Function) : Body := ⟨f.locals, Instr.flattenAll f.code ++ [.close]⟩

/-- Names in order of their indices. -/
def numbered (names : List String) : NameMap := names.zipIdx.map fun (s, i) => (i, s)

/-- Numbered names for those functions that have any. -/
def named (select : Function → List String) : List (Nat × NameMap) :=
  (functions.zipIdx alloc).filterMap fun (f, i) =>
    if (select f).isEmpty then none else some (i, numbered (select f))

def exportFunc (name : String) (index : Nat) : Export := ⟨name, .func, index⟩

/-- The support module. -/
def module : Module where
  types :=
    [⟨[.i32], [.i32]⟩, ⟨[.i32, .i32, .i32], []⟩, ⟨[.i32, .i32], [.i32]⟩, ⟨[.i32, .i32], []⟩,
     ⟨[.i64], [.i32]⟩, ⟨[.i32], [.i64]⟩, ⟨[.f64], [.i32]⟩, ⟨[.i32], [.f64]⟩]
  imports :=
    [⟨"buffer", "new", .func 0⟩, ⟨"buffer", "set", .func 1⟩, ⟨"buffer", "get", .func 2⟩,
     ⟨"buffer", "size", .func 0⟩]
  funcs := functions.map Function.type
  memories := [⟨1, none⟩]
  globals := [⟨⟨.i32, true⟩, [.plain (.i32Const 16)]⟩]
  exports :=
    ⟨"memory", .memory, 0⟩ ::
    [exportFunc "alloc" 4, exportFunc "get_type_num" 7, exportFunc "box_integer" 8,
     exportFunc "to_host_integer" 9, exportFunc "box_number" 10, exportFunc "to_host_number" 11,
     exportFunc "string_new" 12, exportFunc "string_bytes" 13, exportFunc "string_len" 14,
     exportFunc "box_string" 15, exportFunc "to_host_string" 16,
     exportFunc "any_array_create" 18, exportFunc "any_array_set" 19,
     exportFunc "any_array_get" 20, exportFunc "any_array_size" 21]
  bodies := functions.map Function.body
  names :=
    { funcs := [(0, "buffer_new"), (1, "buffer_set"), (2, "buffer_get"), (3, "buffer_size"),
        (4, "alloc"), (5, "box"), (6, "expect"), (12, "string_new"), (17, "slot")]
      locals := named Function.params
      labels := named Function.blocks
      globals := [(0, "heap")] }

end GuestHost.Support
