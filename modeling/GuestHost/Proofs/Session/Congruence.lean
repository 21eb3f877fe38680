import GuestHost.Session.Boundary

/-! What work at the boundary inherits from its parts: whatever calls of helpers and the passing
of texts have in common, and putting work together keeps, holds of all that crosses the
boundary. -/

namespace GuestHost

open Machine
open Wasm (FuncType ValType)

/-- What crossing the boundary can fail with. -/
def Error.isMarshaling : Error → Bool
  | .missingExport _ | .trap _ | .unsupportedTag _ | .invalidBuffer _ | .invalidLength _ => true
  | .compile _ | .link _ | .validation _ | .instantiate _ | .runtime _ | .host _ | .bufferIndex _ _
  | .conversion _ | .foreignEntry | .setup _ | .internal _ => false

namespace Boundary

/-- The calls of helpers that do not pass a text. -/
inductive Asks : String → FuncType → List Val → Prop
  | boxInteger (n : UInt64) : Asks "box_integer" ⟨[.i64], [.i32]⟩ [.i64 n]
  | boxNumber (x : Binary64) : Asks "box_number" ⟨[.f64], [.i32]⟩ [.f64 x]
  | arrayCreate (length : UInt32) : Asks "any_array_create" ⟨[.i32], [.i32]⟩ [.i32 length]
  | arraySet (array index r : UInt32) :
      Asks "any_array_set" ⟨[.i32, .i32, .i32], []⟩ [.i32 array, .i32 index, .i32 r]
  | arraySize (array : UInt32) : Asks "any_array_size" ⟨[.i32], [.i32]⟩ [.i32 array]
  | arrayGet (array index : UInt32) :
      Asks "any_array_get" ⟨[.i32, .i32], [.i32]⟩ [.i32 array, .i32 index]
  | getTypeNum (r : UInt32) : Asks "get_type_num" ⟨[.i32], [.i32]⟩ [.i32 r]
  | toHostInteger (r : UInt32) : Asks "to_host_integer" ⟨[.i32], [.i64]⟩ [.i32 r]
  | toHostNumber (r : UInt32) : Asks "to_host_number" ⟨[.i32], [.f64]⟩ [.i32 r]

/-- A relation between work at one boundary and work at another, or a property if they are the
same, that the parts of getting values to the guest have and that putting work together keeps. -/
structure Lowering (R : ∀ {α : Type}, Guest α → Guest α → Prop) (b b' : Boundary) : Prop where
  pure {α : Type} (a : α) : R (Pure.pure a) (Pure.pure a)
  throw {α : Type} {e : Error} (kind : e.isMarshaling = true) :
    R (MonadExcept.throw e : Guest α) (MonadExcept.throw e)
  bind {α β : Type} {x x' : Guest α} {f f' : α → Guest β} (first : R x x') (rest : ∀ a, R (f a) (f' a)) :
    R (x >>= f) (x' >>= f')
  helper {name : String} {type : FuncType} {args : List Val} (asks : Asks name type args) :
    R (b.helper name type args) (b'.helper name type args)
  lowerText (text : String) : R (b.lowerText text) (b'.lowerText text)

/-- One that the parts of crossing in either direction have. -/
structure Congruence (R : ∀ {α : Type}, Guest α → Guest α → Prop) (b b' : Boundary) : Prop
    extends Lowering R b b' where
  liftText (r : UInt32) : R (b.liftText r) (b'.liftText r)

variable {R : ∀ {α : Type}, Guest α → Guest α → Prop} {b b' : Boundary}

/-! From host to guest. -/

namespace Lowering

variable (h : Lowering R b b')

include h

theorem badResult {α : Type} : R (badResult : Guest α) badResult := h.throw rfl

theorem word {name : String} {params : List ValType} {args : List Val}
    (asks : Asks name ⟨params, [.i32]⟩ args) : R (b.word name params args) (b'.word name params args) := by
  refine h.bind (h.helper asks) fun vals => ?_
  split
  · exact h.pure _
  · exact h.badResult

theorem lower (v : Value) : R (b.lower v) (b'.lower v) := by
  cases v with
  | nil => exact h.pure _
  | integer n => exact h.word (.boxInteger _)
  | number x => exact h.word (.boxNumber x)
  | text s => exact h.lowerText s

theorem storeFrom (array : UInt32) (i : Nat) (vs : List Value) :
    R (b.storeFrom array i vs) (b'.storeFrom array i vs) := by
  induction vs generalizing i with
  | nil => exact h.pure _
  | cons v vs ih =>
      refine h.bind (h.lower v) fun r => ?_
      exact h.bind (h.helper (.arraySet array _ r)) fun _ => ih (i + 1)

theorem pack (args : List Value) : R (b.pack args) (b'.pack args) := by
  unfold Boundary.pack
  split
  · exact h.pure _
  · split
    · exact h.throw rfl
    · refine h.bind (h.word (.arrayCreate _)) fun array => ?_
      exact h.bind (h.storeFrom array 0 args) fun _ => h.pure _

end Lowering

/-! From guest to host. -/

namespace Congruence

variable (h : Congruence R b b')

include h

theorem lift (r : UInt32) : R (b.lift r) (b'.lift r) := by
  unfold Boundary.lift
  split
  · exact h.pure _
  · refine h.bind (h.word (.getTypeNum r)) fun raw => ?_
    split
    · exact h.throw rfl
    · exact h.pure _
    · refine h.bind (h.helper (.toHostInteger r)) fun vals => ?_
      split
      · exact h.pure _
      · exact h.badResult
    · refine h.bind (h.helper (.toHostNumber r)) fun vals => ?_
      split
      · exact h.pure _
      · exact h.badResult
    · exact h.liftText r
    · exact h.throw rfl

theorem liftFrom (array : UInt32) (acc : List Value) (i n : Nat) :
    R (b.liftFrom array acc i n) (b'.liftFrom array acc i n) := by
  induction n generalizing acc i with
  | zero => exact h.pure _
  | succ n ih =>
      refine h.bind (h.word (.arrayGet array _)) fun r => ?_
      exact h.bind (h.lift r) fun v => ih (v :: acc) (i + 1)

theorem unpack (array : UInt32) : R (b.unpack array) (b'.unpack array) := by
  unfold Boundary.unpack
  split
  · exact h.pure _
  · refine h.bind (h.word (.arraySize array)) fun size => ?_
    exact h.bind (h.liftFrom array [] 0 _) fun vs => h.pure _

/-! The end of a call, which can fail with any error. -/

theorem failed {α : Type} (throws : ∀ e, R (MonadExcept.throw e : Guest α) (MonadExcept.throw e)) (e : Failure) :
    R (b.failed e : Guest α) (b'.failed e) := by
  cases e with
  | thrown v => exact h.bind (h.lift _) fun value => throws _
  | host cause => exact throws _
  | trap t => exact throws _
  | message text => exact throws _

theorem conclude (throws : ∀ e, R (MonadExcept.throw e : Guest Returned) (MonadExcept.throw e))
    (r : Except Failure (List Val)) : R (b.conclude r) (b'.conclude r) := by
  unfold Boundary.conclude
  split
  · exact h.unpack _
  · exact h.badResult
  · exact h.failed throws _

end Congruence

end Boundary

end GuestHost
