import GuestHost.Wasm.Listing.Operators
import Mathlib.Data.List.Basic

/-! The lines of operator listings: a text has its lines in one way only, and an operator is written
on one line. -/

namespace GuestHost.Wasm.Listing

/-- No line ends within the text. -/
def Single (s : String) : Prop := '\n' ∉ s.toList

instance (s : String) : Decidable (Single s) := inferInstanceAs (Decidable ('\n' ∉ s.toList))

/-! ## Texts made of lines -/

/-- The lines end with the text that is put together from them. -/
def joined (lines : List String) : String := String.join (lines.map (· ++ "\n"))

/-- The text is made of the lines and of nothing else. -/
structure Lines (text : String) (lines : List String) : Prop where
  whole : text = joined lines
  single : ∀ l ∈ lines, Single l

theorem joined_append (ls ls' : List String) : joined (ls ++ ls') = joined ls ++ joined ls' := by
  rw [joined, List.map_append, String.join_append]
  rfl

theorem toList_joined_cons (l : String) (ls : List String) :
    (joined (l :: ls)).toList = l.toList ++ '\n' :: (joined ls).toList := by
  simp [joined]

/-- What stands before the first of a character, and what after it. -/
theorem append_cons_inj {c : Char} {xs ys as bs : List Char} (hx : c ∉ xs) (hy : c ∉ ys)
    (same : xs ++ c :: as = ys ++ c :: bs) : xs = ys ∧ as = bs := by
  have front {zs : List Char} (rest : List Char) (h : c ∉ zs) : (zs ++ c :: rest).takeWhile (· ≠ c) = zs := by
    rw [List.takeWhile_append_of_pos fun d among => decide_eq_true (ne_of_mem_of_not_mem among h)]
    simp
  have fronts : xs = ys := by rw [← front as hx, same, front bs hy]
  subst fronts
  exact ⟨rfl, (List.cons.inj (List.append_cancel_left same)).2⟩

theorem joined_cons_ne (l : String) (ls : List String) : joined (l :: ls) ≠ joined [] := by
  intro same
  have chars := congrArg String.toList same
  rw [toList_joined_cons] at chars
  exact List.append_ne_nil_of_right_ne_nil _ (List.cons_ne_nil _ _) chars

/-- A text has its lines in one way only. -/
theorem Lines.unique {text : String} {ls ls' : List String} (h : Lines text ls) (h' : Lines text ls') :
    ls = ls' := by
  obtain ⟨whole, single⟩ := h
  obtain ⟨whole', single'⟩ := h'
  have same := whole.symm.trans whole'
  clear whole whole'
  induction ls generalizing ls' with
  | nil =>
      cases ls' with
      | nil => rfl
      | cons l' ls' => exact absurd same.symm (joined_cons_ne l' ls')
  | cons l ls ih =>
      cases ls' with
      | nil => exact absurd same (joined_cons_ne l ls)
      | cons l' ls' =>
          obtain ⟨first, others⟩ := List.forall_mem_cons.mp single
          obtain ⟨first', others'⟩ := List.forall_mem_cons.mp single'
          have chars := congrArg String.toList same
          rw [toList_joined_cons, toList_joined_cons] at chars
          obtain ⟨here, rest⟩ := append_cons_inj first first' chars
          rw [String.toList_inj.mp here, ih others others' (String.toList_inj.mp rest)]

/-! ## Operators -/

@[simp] theorem single_append {s t : String} : Single (s ++ t) ↔ Single s ∧ Single t := by
  simp [Single]

theorem single_intercalate {s : String} {ls : List String} (hs : Single s) (hl : ∀ l ∈ ls, Single l) :
    Single (s.intercalate ls) := by
  induction ls with
  | nil => exact (by decide : Single "")
  | cons l ls ih =>
      obtain ⟨first, rest⟩ := List.forall_mem_cons.mp hl
      cases ls with
      | nil => simpa [Single] using first
      | cons l' ls =>
          rw [String.intercalate_cons_cons, single_append, single_append]
          exact ⟨⟨first, hs⟩, ih rest⟩

theorem single_digits (n : Nat) : Single (toString n) := by
  intro among
  have digit := Nat.isDigit_of_mem_toDigits (by decide) (by decide) (Nat.toList_repr ▸ among)
  revert digit
  decide

theorem single_int (z : Int) : Single (toString z) := by
  cases z with
  | ofNat n => exact single_digits n
  | negSucc n => exact single_append.mpr ⟨by decide, single_digits (n + 1)⟩

theorem single_record {name : String} {fields : List (String × String)} (named : Single name)
    (fielded : ∀ p ∈ fields, Single p.1 ∧ Single p.2) : Single (record name fields) := by
  rw [record, single_append, single_append, single_append]
  refine ⟨⟨⟨named, by decide⟩, single_intercalate (by decide) fun l listed => ?_⟩, by decide⟩
  obtain ⟨p, among, rfl⟩ := List.mem_map.mp listed
  obtain ⟨field, value⟩ := fielded p among
  exact single_append.mpr ⟨single_append.mpr ⟨field, by decide⟩, value⟩

theorem single_numbers {name : String} {fields : List (String × Nat)} (named : Single name)
    (fielded : ∀ p ∈ fields, Single p.1) : Single (numbers name fields) := by
  refine single_record named fun p listed => ?_
  obtain ⟨q, among, rfl⟩ := List.mem_map.mp listed
  exact ⟨fielded q among, single_digits q.2⟩

theorem single_field {name field value : String} (named : Single name) (fielded : Single field)
    (valued : Single value) : Single (record name [(field, value)]) :=
  single_record named (List.forall_mem_singleton.mpr ⟨fielded, valued⟩)

theorem single_valType (t : ValType) : Single (valType t) := by
  cases t <;> decide

theorem single_blockType (t : BlockType) : Single (blockType t) := by
  cases t with
  | empty => exact (by decide : Single "Empty")
  | value t => exact single_append.mpr ⟨single_append.mpr ⟨by decide, single_valType t⟩, by decide⟩
  | indexed i => exact single_append.mpr ⟨single_append.mpr ⟨by decide, single_digits i⟩, by decide⟩

theorem single_access {name : String} (named : Single name) (width : Nat) (m : MemArg) :
    Single (access name width m) :=
  single_field named (by decide) (single_numbers (by decide) (by simp [Single]))

theorem single_plain (p : Plain) : Single (plain p) := by
  cases p with
  | load k m => exact single_access (by cases k <;> decide) _ m
  | store k m => exact single_access (by cases k <;> decide) _ m
  | i32Const w => exact single_field (by decide) (by decide) (single_int _)
  | i64Const w => exact single_field (by decide) (by decide) (single_int _)
  | f64Const x =>
      exact single_field (by decide) (by decide)
        (single_append.mpr ⟨single_append.mpr ⟨by decide, single_digits _⟩, by decide⟩)
  | numeric op => cases op <;> decide
  | unreachable | nop | drop | select | memorySize | memoryGrow | refNull | refIsNull => decide
  | localGet | localSet | localTee | globalGet | globalSet | tableGet | tableSet | memoryInit | dataDrop
  | refFunc => exact single_numbers (by decide) (by simp [Single])

/-- An operator is written on one line. -/
theorem single_operator (op : Operator) : Single (operator op) := by
  cases op with
  | plain p => exact single_plain p
  | block t => exact single_field (by decide) (by decide) (single_blockType t)
  | loop t => exact single_field (by decide) (by decide) (single_blockType t)
  | cond t => exact single_field (by decide) (by decide) (single_blockType t)
  | branchTable ds d =>
      refine single_field (by decide) (by decide) (single_record (by decide) ?_)
      have targets : Single (String.intercalate ", " (ds.map toString)) := by
        refine single_intercalate (by decide) fun l listed => ?_
        obtain ⟨n, _, rfl⟩ := List.mem_map.mp listed
        exact single_digits n
      refine List.forall_mem_cons.mpr ⟨⟨(by decide : Single "count"), single_digits _⟩, ?_⟩
      refine List.forall_mem_cons.mpr ⟨⟨(by decide : Single "default"), single_digits _⟩, ?_⟩
      refine List.forall_mem_singleton.mpr ⟨(by decide : Single "targets"), ?_⟩
      exact single_append.mpr ⟨single_append.mpr ⟨by decide, targets⟩, by decide⟩
  | otherwise | close | ret => decide
  | branch | branchIf | call | callIndirect => exact single_numbers (by decide) (by simp [Single])

end GuestHost.Wasm.Listing
