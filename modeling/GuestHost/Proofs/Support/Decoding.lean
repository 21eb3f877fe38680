import GuestHost.Proofs.Support.Copying

/-! What the bytes of memory stand for, whichever word is taken for a reference. The decoding is
told without any code; then the work of each helper is compared with it. -/

namespace GuestHost

open Machine

/-- What is reported of a helper that fails. -/
def Error.ofHelper (helper reason : String) : Error := .trap (helper ++ ": " ++ reason)

/-- A helper needs a byte that memory does not have. -/
def Error.outside (helper : String) : Error := .ofHelper helper Trap.memoryBounds.message

theorem Error.invalidLength_ne_trap (n : Int32) (t : Trap) : (Error.invalidLength n).message ≠ t.message := by
  intro same
  have first := congrArg (fun text => text.toList.head?) same
  have i : "invalid buffer length ".toList.head? = some 'i' := rfl
  have w : "wasm trap: ".toList.head? = some 'w' := rfl
  dsimp only [Error.message, Trap.message] at first
  rw [String.toList_append, String.toList_append, List.head?_append, List.head?_append, i, w,
    Option.some_or, Option.some_or, Option.some.injEq] at first
  exact absurd first (by decide)

namespace Machine.Memory

/-! ## The decoding -/

/-- The word of eight bytes at an address, if all of it lies inside. -/
def long? (m : Memory) (a : Nat) : Option UInt64 := (m.read? a 8).map fun bs => UInt64.ofNat (bytesWord bs)

/-- The word of eight bytes in a box. -/
def payload (m : Memory) (helper : String) (v : UInt32) : Except Error UInt64 :=
  match m.long? (v.toNat + 8) with
  | none => .error (.outside helper)
  | some n => .ok n

/-- The text in a box: exactly as many bytes as its length says, which must not be negative. -/
def decodeText (m : Memory) (v : UInt32) : Except Error Value :=
  match m.word? (v.toNat + 4) with
  | none => .error (.outside "to_host_string")
  | some n =>
    if n.toInt32 < 0 then .error (.ofHelper "to_host_string" (Error.invalidLength n.toInt32).message)
    else
      match m.read? (v.toNat + 8) n.toNat with
      | none => .error (.outside "to_host_string")
      | some bs => .ok (.text (Utf8.decodeLossy bs.toArray))

/-- What a reference to a box of some kind stands for. -/
def decodeAs (m : Memory) (kind v : UInt32) : Except Error Value :=
  match kind.toNat with
  | 0 => .ok .nil
  | 1 => .error (.unsupportedTag "boolean")
  | 2 => (m.payload "to_host_integer" v).map fun n => .integer n.toInt64
  | 3 => (m.payload "to_host_number" v).map fun n => .number ⟨n⟩
  | 4 => m.decodeText v
  | 5 => .error (.unsupportedTag "function")
  | 6 => .error (.unsupportedTag "userdata")
  | 7 => .error (.unsupportedTag "thread")
  | 8 => .error (.unsupportedTag "table")
  | _ => .error (.unsupportedTag ("#" ++ toString kind.toInt32.toInt))

/-- What a reference stands for. -/
def decode (m : Memory) (v : UInt32) : Except Error Value :=
  if v = 0 then .ok .nil
  else
    match m.word? v.toNat with
    | none => .error (.outside "get_type_num")
    | some kind => m.decodeAs kind v

/-- What a helper lacks to decode a reference, and how it says so. -/
inductive Lacks (m : Memory) (v : UInt32) : String → String → Prop
  | kind (some_v : v ≠ 0) (outside : m.size < v.toNat + 4) :
      Lacks m v "get_type_num" Trap.memoryBounds.message
  | integer (some_v : v ≠ 0) (kind : m.word? v.toNat = some 2) (outside : m.size < v.toNat + 8 + 8) :
      Lacks m v "to_host_integer" Trap.memoryBounds.message
  | number (some_v : v ≠ 0) (kind : m.word? v.toNat = some 3) (outside : m.size < v.toNat + 8 + 8) :
      Lacks m v "to_host_number" Trap.memoryBounds.message
  | length (some_v : v ≠ 0) (kind : m.word? v.toNat = some 4) (outside : m.size < v.toNat + 4 + 4) :
      Lacks m v "to_host_string" Trap.memoryBounds.message
  | negative {n : UInt32} (some_v : v ≠ 0) (kind : m.word? v.toNat = some 4)
      (length : m.word? (v.toNat + 4) = some n) (negative : n.toInt32 < 0) :
      Lacks m v "to_host_string" (Error.invalidLength n.toInt32).message
  | bytes {n : UInt32} (some_v : v ≠ 0) (kind : m.word? v.toNat = some 4)
      (length : m.word? (v.toNat + 4) = some n) (positive : ¬ n.toInt32 < 0)
      (outside : m.size < v.toNat + 8 + n.toNat) :
      Lacks m v "to_host_string" Trap.memoryBounds.message

/-- What is taken for a string has a length that leads past the end of memory, and does not count
as negative. -/
structure Torn (m : Memory) (v n : UInt32) : Prop where
  kind : m.word? v.toNat = some 4
  length : m.word? (v.toNat + 4) = some n
  positive : ¬ n.toInt32 < 0
  outside : m.size < v.toNat + 8 + n.toNat

section

variable {m : Memory} {v : UInt32} {a : Nat}

theorem word?_eq_none_iff : m.word? a = none ↔ m.size < a + 4 := by
  rw [word?, Option.map_eq_none_iff, read?_eq_none_iff]

theorem long?_eq_none_iff : m.long? a = none ↔ m.size < a + 8 := by
  rw [long?, Option.map_eq_none_iff, read?_eq_none_iff]

theorem decode_headless (some_v : v ≠ 0) (outside : m.word? v.toNat = none) :
    m.decode v = .error (.outside "get_type_num") := by
  rw [decode, if_neg some_v, outside]

theorem decode_eq {kind : UInt32} (some_v : v ≠ 0) (found : m.word? v.toNat = some kind) :
    m.decode v = m.decodeAs kind v := by
  rw [decode, if_neg some_v, found]

/-! ## What cannot be decoded -/

theorem payload_outside {helper : String} (outside : m.size < v.toNat + 8 + 8) :
    m.payload helper v = .error (.outside helper) := by
  rw [payload, long?_eq_none_iff.mpr outside]

theorem payload_error {helper : String} {e : Error} (failed : m.payload helper v = .error e) :
    m.size < v.toNat + 8 + 8 ∧ e = .outside helper := by
  rw [payload] at failed
  split at failed
  · next outside =>
      cases failed
      exact ⟨long?_eq_none_iff.mp outside, rfl⟩
  · cases failed

theorem decodeText_error {e : Error} (some_v : v ≠ 0) (kind : m.word? v.toNat = some 4)
    (failed : m.decodeText v = .error e) :
    ∃ reason, Lacks m v "to_host_string" reason ∧ e = .ofHelper "to_host_string" reason := by
  rw [decodeText] at failed
  split at failed
  · next outside =>
      cases failed
      exact ⟨_, .length some_v kind (word?_eq_none_iff.mp outside), rfl⟩
  · next n length =>
      split at failed
      · next negative =>
          cases failed
          exact ⟨_, .negative some_v kind length negative, rfl⟩
      · next positive =>
          split at failed
          · next outside =>
              cases failed
              exact ⟨_, .bytes some_v kind length positive (read?_eq_none_iff.mp outside), rfl⟩
          · cases failed

theorem map_error {ε α β : Type} {f : α → β} {r : Except ε α} {e : ε} (h : r.map f = .error e) :
    r = .error e := by
  cases r with
  | error _ =>
      cases h
      rfl
  | ok _ => cases h

/-- A box of some kind is taken for nothing that it is not, and what traps is a helper that
lacks something. -/
theorem decodeAs_trap {kind : UInt32} {text : String} (some_v : v ≠ 0) (found : m.word? v.toNat = some kind)
    (trapped : m.decodeAs kind v = .error (.trap text)) :
    ∃ helper reason, Lacks m v helper reason ∧ text = helper ++ ": " ++ reason := by
  have known {w : UInt32} (same : kind.toNat = w.toNat) : m.word? v.toNat = some w := by
    rw [found, UInt32.toNat_inj.mp same]
  rw [decodeAs] at trapped
  split at trapped
  case h_3 same =>
    obtain ⟨outside, same'⟩ := payload_error (map_error trapped)
    cases same'
    exact ⟨_, _, .integer some_v (known same) outside, rfl⟩
  case h_4 same =>
    obtain ⟨outside, same'⟩ := payload_error (map_error trapped)
    cases same'
    exact ⟨_, _, .number some_v (known same) outside, rfl⟩
  case h_5 same =>
    obtain ⟨reason, lacks, same'⟩ := decodeText_error some_v (known same) trapped
    cases same'
    exact ⟨_, reason, lacks, rfl⟩
  all_goals cases trapped

/-- A reference cannot be decoded for a trap exactly if a helper lacks something. -/
theorem decode_trap_iff {text : String} : m.decode v = .error (.trap text) ↔
    ∃ helper reason, Lacks m v helper reason ∧ text = helper ++ ": " ++ reason := by
  constructor
  · intro trapped
    by_cases some_v : v = 0
    · rw [decode, if_pos some_v] at trapped
      cases trapped
    · cases found : m.word? v.toNat with
      | none =>
          rw [decode_headless some_v found] at trapped
          cases trapped
          exact ⟨_, _, .kind some_v (word?_eq_none_iff.mp found), rfl⟩
      | some kind =>
          rw [decode_eq some_v found] at trapped
          exact decodeAs_trap some_v found trapped
  · rintro ⟨helper, reason, lacks, rfl⟩
    cases lacks with
    | kind some_v outside => exact decode_headless some_v (word?_eq_none_iff.mpr outside)
    | integer some_v kind outside =>
        rw [decode_eq some_v kind]
        change (m.payload "to_host_integer" v).map _ = _
        rw [payload_outside outside]
        rfl
    | number some_v kind outside =>
        rw [decode_eq some_v kind]
        change (m.payload "to_host_number" v).map _ = _
        rw [payload_outside outside]
        rfl
    | length some_v kind outside =>
        rw [decode_eq some_v kind]
        change m.decodeText v = _
        rw [decodeText, word?_eq_none_iff.mpr outside]
        rfl
    | negative some_v kind length negative =>
        rw [decode_eq some_v kind]
        change m.decodeText v = _
        rw [decodeText, length]
        dsimp only
        rw [if_pos negative]
        rfl
    | bytes some_v kind length positive outside =>
        rw [decode_eq some_v kind]
        change m.decodeText v = _
        rw [decodeText, length]
        dsimp only
        rw [if_neg positive, read?_eq_none_iff.mpr outside]
        rfl

/-- No helper finds a box of another kind than it expects. -/
theorem Lacks.expected {helper reason : String} (lacks : Lacks m v helper reason) :
    reason ≠ Trap.unreachable.message := by
  cases lacks with
  | kind | integer | number | length | bytes => decide
  | negative => exact Error.invalidLength_ne_trap _ _

end

end Machine.Memory

namespace Support.Work

variable {x : Space} {v : UInt32}

/-! ## The helpers' work -/

theorem fetch_outside {n a : Nat} (outside : x.memory.read? a n = none) :
    fetch n a x = (.error (.trap .memoryBounds), x) := by
  rw [fetch, outside]

theorem fetch_word_outside {a : Nat} (outside : x.memory.word? a = none) :
    fetch 4 a x = (.error (.trap .memoryBounds), x) :=
  fetch_outside (Option.map_eq_none_iff.mp outside)

theorem head_outside (some_v : v ≠ 0) (outside : x.memory.word? v.toNat = none) :
    head v x = (.error (.trap .memoryBounds), x) := by
  rw [head, if_neg some_v, bind_error (fetch_word_outside outside)]

theorem head_word {w : UInt32} (some_v : v ≠ 0) (found : x.memory.word? v.toNat = some w) :
    head v x = (.ok w, x) := by
  obtain ⟨n, fetched, rfl⟩ := fetch_word found
  rw [head, if_neg some_v, bind_eq fetched]
  rfl

theorem expect_word {kind : UInt32} (some_v : v ≠ 0) (found : x.memory.word? v.toNat = some kind) :
    expect v kind x = (.ok (), x) := by
  obtain ⟨n, fetched, rfl⟩ := fetch_word found
  rw [expect, bind_eq (require_eq (by simpa using some_v)), bind_eq fetched]
  exact require_eq (by simp)

/-- What is unboxed is the payload. -/
theorem unboxWord_word {kind : UInt32} (some_v : v ≠ 0) (found : x.memory.word? v.toNat = some kind) :
    unboxWord kind v x =
      match x.memory.long? (v.toNat + 8) with
      | none => (.error (.trap .memoryBounds), x)
      | some n => (.ok n, x) := by
  rw [unboxWord, bind_eq (expect_word some_v found), Memory.long?]
  cases read : x.memory.read? (v.toNat + 8) 8 with
  | none => rw [bind_error (fetch_outside read), Option.map_none]
  | some bs =>
      have fetched : fetch 8 (v.toNat + 8) x = (.ok (bytesWord bs), x) := by rw [fetch, read]
      rw [bind_eq fetched, Option.map_some]
      rfl

section

variable {n : UInt32} (some_v : v ≠ 0) (kind : x.memory.word? v.toNat = some 4)

include some_v kind

theorem toHostString_headless (outside : x.memory.word? (v.toNat + 4) = none) :
    toHostString v x = (.error (.trap .memoryBounds), x) := by
  rw [toHostString, bind_eq (expect_word some_v kind), bind_error (fetch_word_outside outside)]

/-- Copying begins with the length that memory tells. -/
theorem toHostString_length (length : x.memory.word? (v.toNat + 4) = some n) :
    toHostString v x = (do
      let buffer ← bufferNew n
      copyOut v buffer n.toNat 0
      return buffer : Work UInt32) x := by
  obtain ⟨w, fetched, rfl⟩ := fetch_word length
  rw [toHostString, bind_eq (expect_word some_v kind), bind_eq fetched]

theorem toHostString_negative (length : x.memory.word? (v.toNat + 4) = some n)
    (negative : n.toInt32 < 0) :
    toHostString v x = (.error (.host (.invalidLength n.toInt32)), x) := by
  have refused : bufferNew n x = (.error (.host (.invalidLength n.toInt32)), x) := by
    rw [bufferNew, if_pos negative]
  rw [toHostString_length some_v kind length, bind_error refused]

/-- Where every handle is live there is none for a string whose length does not count as negative. -/
theorem starved_of_length (length : x.memory.word? (v.toNat + 4) = some n) (positive : ¬ n.toInt32 < 0)
    (full : x.buffers.fresh ∈ x.buffers.live) : Starved v x := by
  obtain ⟨w, fetched, rfl⟩ := fetch_word length
  exact ⟨_, _, expect_word some_v kind, _, _, fetched, positive, full⟩

/-- All the bytes of a string come to be in a fresh buffer if memory has them, wherever it ends. -/
theorem toHostString_bytes {bs : List UInt8} (free : x.buffers.fresh ∉ x.buffers.live)
    (paged : x.memory.size ≤ UInt32.size)
    (length : x.memory.word? (v.toNat + 4) = some n) (small : n.toNat < 2147483648)
    (found : x.memory.read? (v.toNat + 8) n.toNat = some bs) :
    toHostString v x = (.ok x.buffers.fresh.toUInt32, x.withBuffer bs) := by
  obtain ⟨inside, count, held⟩ := Memory.read?_eq_some found
  rw [← count] at small inside
  have copied := copyOut_eq v bs [] 0 held rfl small inside (Nat.le_trans inside paged)
    (List.replicate n.toNat 0) (by rw [List.length_replicate, count])
  rw [List.nil_append, List.nil_append, count] at copied
  rw [toHostString_length some_v kind length, bind_eq (bufferNew_eq (count ▸ small) free),
    bind_eq copied]
  rfl

end

/-- A string that memory does not have all bytes of is given up half-way. Its addresses leave
memory before they wrap. -/
theorem toHostString_torn (some_v : v ≠ 0) (free : x.buffers.fresh ∉ x.buffers.live)
    (paged : x.memory.size ≤ UInt32.size) (torn : x.memory.Torn v n) :
    ∃ bytes, toHostString v x = (.error (.trap .memoryBounds), x.withBuffer bytes) := by
  obtain ⟨kind, length, positive, short⟩ := torn
  have small := Nat.lt_of_not_le (mt toInt32_neg_iff.mpr positive)
  have header : v.toNat + 4 + 4 ≤ x.memory.size := by
    obtain ⟨bs, read, _⟩ := Option.map_eq_some_iff.mp length
    exact (Memory.read?_eq_some read).1
  have filled : (List.replicate n.toNat (0 : UInt8)).length = (0 : UInt32).toNat + n.toNat := by simp
  obtain ⟨bytes, ⟨-, inside⟩ | stopped⟩ :=
    copyOut_cases (x := x) v n.toNat 0 _ filled (by simpa using small)
  · -- The first byte past the end of memory has an address that has not wrapped.
    unfold UInt32.size at paged
    have first := inside (x.memory.size - 8 - v.toNat) (by rw [List.length_replicate]; omega) (Nat.zero_le _)
    rw [UInt32.toNat_add, UInt32.toNat_ofNat', Nat.mod_eq_of_lt (a := x.memory.size - 8 - v.toNat) (by omega),
      Nat.mod_eq_of_lt (by omega)] at first
    omega
  · refine ⟨bytes, ?_⟩
    rw [toHostString_length some_v kind length, bind_eq (bufferNew_eq small free), bind_error stopped]

end Support.Work

end GuestHost
