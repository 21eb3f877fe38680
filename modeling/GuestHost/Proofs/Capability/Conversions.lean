import GuestHost.Proofs.Capability.Uses
import GuestHost.Proofs.Number.Integers

/-! What the functions that make numbers of texts answer: which texts are integers of 64 bits, and
how the two functions agree on a text. -/

namespace GuestHost.Capability.Use

open Machine Binary64

variable {bytes : Array UInt8}

/-- A function answers this for the bytes, wherever the host has them and whatever else it has. -/
def Answers (u : UInt32 → Use) (bytes : Array UInt8) (r : Except Failure (List Val)) : Prop :=
  ∀ o h buffer, h.buffers.live[buffer.toInt32]? = some ⟨bytes⟩ →
    ((u buffer).perform o h).map Prod.fst = some r

/-- A function that consumes a buffer answers what it makes of the bytes. -/
theorem consuming_answers {u : UInt32 → Use} {results : List Wasm.ValType} {r : Except Failure (List Val)}
    {g : Array UInt8 → Host → Except Failure (List Val) × Host}
    (consumes : ∀ o buffer, (u buffer).capability o = consuming results g)
    (given : ∀ buffer, (u buffer).args = [.i32 buffer]) (quiet : ∀ h : Host, g bytes h = (r, h))
    (typed : ∀ o buffer, r.bind ((u buffer).capability o).checked = r) : Answers u bytes r := by
  intro o h buffer live
  have action := congrArg Capability.action (consumes o buffer)
  have does := perform_eq (h := h) action r { h.buffers with live := h.buffers.live.erase buffer.toInt32 } #[] rfl (by
    rw [given]
    dsimp only [Host.take, Buffers.take]
    rw [live]
    exact congrArg some (quiet _))
  rw [does, typed]
  rfl

theorem toNumber_answers (bytes : Array UInt8) : Answers .toNumber bytes (.ok [.f64 (.ofBytes bytes)]) :=
  consuming_answers (fun _ _ => rfl) (fun _ => rfl) (fun _ => rfl) fun _ _ => rfl

/-- The integer, or else the whole text as the reason why there is none. -/
theorem toInteger_answers (bytes : Array UInt8) :
    Answers .toInteger bytes ((integerOfBytes? bytes).elim (hostError (.conversion (Utf8.decodeLossy bytes)))
      fun n => .ok [.i64 n.toUInt64]) := by
  cases names : integerOfBytes? bytes with
  | some n =>
      refine consuming_answers (fun _ _ => rfl) (fun _ => rfl) (fun h => ?_) fun _ _ => rfl
      rw [names]
      rfl
  | none =>
      refine consuming_answers (fun _ _ => rfl) (fun _ => rfl) (fun h => ?_) fun _ _ => rfl
      rw [names]
      rfl

/-! ## Decimal integers -/

/-- A decimal integer between blanks is the integer if 64 bits hold it, and else none, with the
whole text as the reason; but what lies no more than half a step of the numbers there below the
least integer of 64 bits is taken for that one. -/
theorem toInteger_decimal {before cs after : List Char} {n : ℤ} (integer : Literal.Integer n cs)
    (blanks : ∀ c ∈ before ++ after, Blank.isBlank c = true) :
    let text := String.ofList (before ++ (cs ++ after))
    let read := integerOfBytes? (Utf8.encode text)
    (∀ k, read = some k ↔ k.toInt = n ∨ k.toInt = -2 ^ 63 ∧ -2 ^ 63 - 1024 ≤ n ∧ n < -2 ^ 63) ∧
      (read = none ↔ n < -2 ^ 63 - 1024 ∨ 2 ^ 63 ≤ n) ∧
      Answers .toInteger (Utf8.encode text)
        (read.elim (hostError (.conversion text)) fun k => .ok [.i64 k.toUInt64]) := by
  intro text read
  have decoded : Utf8.decodeLossy (Utf8.encode text) = text := Utf8.decodeLossy_encode text
  have trimmed : Blank.trim text.toList = cs := by
    rw [String.toList_ofList, Blank.trim_append blanks integer.visible.solid]
  have answers := toInteger_answers (Utf8.encode text)
  rw [decoded] at answers
  have parts : read = (int64? cs).or (ofChars cs).toInt64? := by
    change integerOfBytes? (Utf8.encode text) = _
    rw [integerOfBytes?, ofBytes, decoded, trimmed]
  refine ⟨fun k => ?_, ?_, answers⟩
  · rw [parts]
    exact integer.read_iff
  · rw [parts]
    exact integer.read_none_iff

theorem toInteger_decimal_below : Literal.Integer (-9223372036854775809) "-9223372036854775809".toList ∧
    integerOfBytes? (Utf8.encode "-9223372036854775809") = some Int64.minValue ∧
    Answers .toInteger (Utf8.encode "-9223372036854775809") (.ok [.i64 0x8000000000000000]) := by
  have integer : Literal.Integer (-9223372036854775809) "-9223372036854775809".toList :=
    Literal.integer?_eq_some_iff.mp (by decide)
  have blanks : ∀ c ∈ ([] ++ [] : List Char), Blank.isBlank c = true :=
    fun _ listed => absurd listed List.not_mem_nil
  obtain ⟨read, -, answers⟩ := toInteger_decimal integer blanks
  rw [List.nil_append, List.append_nil, String.ofList_toList] at read answers
  have least := (read Int64.minValue).mpr (.inr (by decide))
  rw [least] at answers
  exact ⟨integer, least, answers⟩

/-! ## Agreement -/

/-- The two functions agree on all bytes. If these are an integer, they are the number that it is
rounded to, and the integer itself unless it is written in decimal digits only; if they are none,
the whole text is the reason, and they are no number, no finite one, one with a fraction or one
past the limits. -/
theorem conversions_agree (bytes : Array UInt8) :
    let text := Utf8.decodeLossy bytes
    let x := ofBytes bytes
    Answers .toNumber bytes (.ok [.f64 x]) ∧
      Answers .toInteger bytes
        ((integerOfBytes? bytes).elim (hostError (.conversion text)) fun n => .ok [.i64 n.toUInt64]) ∧
      (∀ n, integerOfBytes? bytes = some n →
        Rounds n.toInt x ∧ (int64? (Blank.trim text.toList) = none → x.isFinite = true ∧ x.value = n.toInt)) ∧
      (integerOfBytes? bytes = none →
        x.isNaN = true ∨ x.isInfinite = true ∨
          x.isFinite = true ∧ ((¬ ∃ n : ℤ, x.value = n) ∨ x.value < -2 ^ 63 ∨ 2 ^ 63 ≤ x.value)) := by
  intro text x
  refine ⟨toNumber_answers bytes, toInteger_answers bytes, fun n names => ?_, fun refused => ?_⟩
  · rw [integerOfBytes?, Option.or_eq_some_iff] at names
    rcases names with written | ⟨other, taken⟩
    · have integer := int64?_eq_some_iff.mp written
      refine ⟨integer.rounds, fun none => ?_⟩
      rw [written] at none
      cases none
    · obtain ⟨finite, value⟩ := toInt64?_eq_some_iff.mp taken
      exact ⟨value ▸ rounds_value finite, fun _ => ⟨finite, value⟩⟩
  · rw [integerOfBytes?, Option.or_eq_none_iff] at refused
    exact of_toInt64?_eq_none refused.2

/-- The greatest integer of 64 bits is taken as it is, though no number is equal to it. -/
theorem conversions_agree_greatest :
    integerOfBytes? (Utf8.encode " 9223372036854775807") = some Int64.maxValue ∧
      Answers .toInteger (Utf8.encode " 9223372036854775807") (.ok [.i64 0x7FFFFFFFFFFFFFFF]) ∧
      Rounds (2 ^ 63 - 1) (ofBytes (Utf8.encode " 9223372036854775807")) := by
  have names : integerOfBytes? (Utf8.encode " 9223372036854775807") = some Int64.maxValue := by
    have written : int64? (Blank.trim " 9223372036854775807".toList) = some Int64.maxValue := by decide
    rw [integerOfBytes?, Utf8.decodeLossy_encode, written, Option.some_or]
  obtain ⟨-, answers, agree, -⟩ := conversions_agree (Utf8.encode " 9223372036854775807")
  rw [names] at answers
  refine ⟨names, answers, ?_⟩
  have rounds := (agree _ names).1
  rwa [show ((Int64.maxValue.toInt : ℤ) : ℚ) = 2 ^ 63 - 1 by rw [Int64.toInt_maxValue]; norm_num] at rounds

end GuestHost.Capability.Use
