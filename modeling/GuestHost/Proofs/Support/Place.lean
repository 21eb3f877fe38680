import GuestHost.Capability.Default
import GuestHost.Proofs.Machine.Segments
import GuestHost.Support.Module

/-! Where an instance of the support module stands in a store, and the part of the store
that its code works on: its memory, the end of what it has handed out, and the host's
buffers. -/

namespace GuestHost.Support

open Machine

/-- The addresses of an instance, of what it imports and of what it owns. -/
structure Place where
  inst : Nat
  bufferNew : Nat
  bufferSet : Nat
  bufferGet : Nat
  bufferSize : Nat
  /-- The address of the first of the module's own functions. -/
  base : Nat
  memory : Nat
  heap : Nat

/-- What the module's code works on. -/
structure Space where
  memory : Memory
  /-- The end of the memory handed out so far. -/
  top : UInt32
  buffers : Buffers

/-- What the code of an instance of the module works on. -/
def space? (s : Store) (inst : Nat) : Option Space :=
  match s.memory? inst, (s.globalAddr? inst 0).bind fun a => s.globals[a]?.map Global.value with
  | some memory, some (.i32 top) => some ⟨memory, top, s.host.buffers⟩
  | _, _ => none

namespace Place

/-- The instance, by its addresses. -/
def image (p : Place) : Instance where
  types := module.types
  funcs := ([p.bufferNew, p.bufferSet, p.bufferGet, p.bufferSize] ++
    List.range' p.base functions.length).toArray
  memories := #[p.memory]
  globals := #[p.heap]
  exports := module.exports.filterMap fun e =>
    match e.kind with
    | .memory => some (e.name, .memory p.memory)
    | _ => some (e.name, .func (p.base + (e.index - alloc)))

/-- One of the module's own functions as an item of a store. -/
def func (p : Place) (f : Function) : Func :=
  .guest (module.types.getD f.type ⟨[], []⟩) p.inst f.body.localTypes f.code

/-- The store has the instance, the code of its functions, and what it owns, whatever the
functions that it imports do. -/
structure Rooted (p : Place) (s : Store) : Prop where
  found : s.instances[p.inst]? = some p.image
  own : ∀ {k : Nat} {f : Function}, functions[k]? = some f → s.funcs[p.base + k]? = some (p.func f)
  memory : p.memory < s.memories.size
  heap : p.heap < s.globals.size

/-- The store has the instance, the code of its functions, and the capabilities it
imports, none of which ever changes. -/
structure Stands (p : Place) (s : Store) : Prop extends p.Rooted s where
  bufferNew : s.funcs[p.bufferNew]? = some (.host Capability.bufferNew)
  bufferSet : s.funcs[p.bufferSet]? = some (.host Capability.bufferSet)
  bufferGet : s.funcs[p.bufferGet]? = some (.host Capability.bufferGet)
  bufferSize : s.funcs[p.bufferSize]? = some (.host Capability.bufferSize)

/-- The store with the instance's part of it replaced. -/
def put (p : Place) (s : Store) (x : Space) : Store :=
  { s with
    memories := s.memories.setIfInBounds p.memory x.memory
    globals := s.globals.modify p.heap fun g => { g with value := .i32 x.top }
    host := { s.host with buffers := x.buffers } }

/-- The space is the instance's part of the store. -/
structure Owns (p : Place) (s : Store) (x : Space) : Prop where
  memory : s.memories[p.memory]? = some x.memory
  top : (s.globals[p.heap]?).map Global.value = some (.i32 x.top)
  buffers : s.host.buffers = x.buffers

section

variable {p : Place} {s : Store}

/-- The addresses of what an instance owns are all that it takes to tell its space. -/
theorem space?_iff (found : s.instances[p.inst]? = some p.image) {x : Space} :
    space? s p.inst = some x ↔ p.Owns s x := by
  have memory : s.memory? p.inst = s.memories[p.memory]? := by
    rw [Store.memory?, Store.memoryAddr?, found]
    rfl
  have heap : (s.globalAddr? p.inst 0).bind (fun a => s.globals[a]?.map Global.value) =
      s.globals[p.heap]?.map Global.value := by
    rw [Store.globalAddr?, found]
    rfl
  rw [space?, memory, heap]
  constructor
  · intro found
    split at found
    · next memory top =>
        cases found
        exact ⟨memory, top, rfl⟩
    · cases found
  · intro owns
    rw [owns.memory, owns.top, owns.buffers]

theorem Rooted.space?_eq (h : p.Rooted s) {x : Space} : space? s p.inst = some x ↔ p.Owns s x :=
  space?_iff h.found

theorem put_put (x y : Space) : p.put (p.put s x) y = p.put s y := by
  have globals : (s.globals.modify p.heap fun g => { g with value := .i32 x.top }).modify p.heap
      (fun g => { g with value := .i32 y.top }) =
      s.globals.modify p.heap fun g => { g with value := .i32 y.top } := by
    refine Array.ext_getElem? fun i => ?_
    simp only [Array.getElem?_modify]
    split
    · simp [Function.comp_def]
    · rfl
  simp only [Place.put, Array.setIfInBounds_setIfInBounds, globals]

theorem Owns.put_eq {x : Space} (h : p.Owns s x) : p.put s x = s := by
  have memories : s.memories.setIfInBounds p.memory x.memory = s.memories := by
    refine Array.ext_getElem? fun i => ?_
    rw [Array.getElem?_setIfInBounds]
    split
    · next same =>
        subst same
        rw [h.memory, if_pos (Array.getElem?_eq_some_iff.mp h.memory).1]
    · rfl
  have globals : (s.globals.modify p.heap fun g => { g with value := .i32 x.top }) = s.globals := by
    refine Array.ext_getElem? fun i => ?_
    rw [Array.getElem?_modify]
    split
    · next same =>
        subst same
        obtain ⟨g, hg, hv⟩ := Option.map_eq_some_iff.mp h.top
        rw [hg, Option.map_some, ← hv]
    · rfl
  simp only [Place.put, memories, globals, ← h.buffers]

theorem Rooted.put (h : p.Rooted s) (x : Space) : p.Rooted (p.put s x) where
  found := h.found
  own := h.own
  memory := by simpa [Place.put] using h.memory
  heap := by simpa [Place.put] using h.heap

theorem Stands.put (h : p.Stands s) (x : Space) : p.Stands (p.put s x) :=
  ⟨h.toRooted.put x, h.bufferNew, h.bufferSet, h.bufferGet, h.bufferSize⟩

theorem Stands.withBuffers (h : p.Stands s) (buffers : Buffers) :
    p.Stands { s with host := { s.host with buffers } } :=
  ⟨⟨h.found, h.own, h.memory, h.heap⟩, h.bufferNew, h.bufferSet, h.bufferGet, h.bufferSize⟩

theorem Owns.withBuffers {x : Space} (h : p.Owns s x) (buffers : Buffers) :
    p.Owns { s with host := { s.host with buffers } } { x with buffers } :=
  ⟨h.memory, h.top, rfl⟩

theorem Rooted.owns_put (h : p.Rooted s) (x : Space) : p.Owns (p.put s x) x where
  memory := by simp [Place.put, h.memory]
  top := by
    rw [Place.put]
    dsimp only
    rw [Array.getElem?_modify, if_pos rfl, Array.getElem?_eq_getElem h.heap]
    rfl
  buffers := rfl

end

end Place

end GuestHost.Support
