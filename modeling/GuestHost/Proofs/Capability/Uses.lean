import GuestHost.Compiler.Builtin
import GuestHost.Proofs.Capability.Running
import GuestHost.Proofs.Ledger
import GuestHost.Proofs.Session.Shared
import GuestHost.Proofs.Support.Strings
import GuestHost.Proofs.Utf8

/-! Functions of buffers, numbers and streams over a store of byte strings. Whatever a guest
calls them with, they answer as a ledger of what each live handle holds, fail only for the
reasons that it gives, and leave every other handle alone. -/

namespace GuestHost

open Machine
open Buffers (Ledger)

namespace Buffers

namespace Ledger

variable {m : Ledger} {j k : Handle} {bytes : ByteArray}

theorem issue_frame (differs : (m.issue k bytes).held j ≠ m.held j) : j = k := by
  by_contra other
  exact differs (Function.update_of_ne other _ _)

theorem drop_frame (differs : (m.drop k).held j ≠ m.held j) : j = k := by
  by_contra other
  exact differs (Function.update_of_ne other _ _)

theorem replace_frame (differs : (m.replace k bytes).held j ≠ m.held j) : j = k := by
  by_contra other
  exact differs (Function.update_of_ne other _ _)

theorem drop_dead (m : Ledger) (k : Handle) : (m.drop k).held k = none := Function.update_self _ _ _

end Ledger

/-- What is known of a table before anything is done with it. -/
def ledger (t : Buffers) : Ledger := { held := fun k => t.live[k]?, last := t.issued, inserted := t.size }

theorem refines_ledger (t : Buffers) : t.Refines t.ledger where
  held _ := rfl
  last := rfl
  size := rfl

/-- A ledger tells all that there is to a table. -/
theorem Refines.unique {t t' : Buffers} {m : Ledger} (h : t.Refines m) (h' : t'.Refines m) : t = t' := by
  obtain ⟨issued, live⟩ := t
  obtain ⟨issued', live'⟩ := t'
  obtain rfl : issued = issued' := h.last.trans h'.last.symm
  obtain rfl : live = live' := Std.ExtTreeMap.ext_getElem? fun k => (h.held k).trans (h'.held k).symm
  rfl

end Buffers

namespace Capability

/-! ## What is called -/

/-- A call of a function of buffers, numbers or streams, with the words and numbers that the
guest passes. -/
inductive Use
  | new (size : UInt32)
  | set (buffer index byte : UInt32)
  | get (buffer index : UInt32)
  | size (buffer : UInt32)
  | drop (buffer : UInt32)
  | toNumber (buffer : UInt32)
  | toInteger (buffer : UInt32)
  | integerText (n : UInt64)
  | numberText (x : Binary64)
  | write (s : Stream) (buffer : UInt32)

namespace Use

/-- The namespace of the function. -/
def space : Use → String
  | .new _ | .set _ _ _ | .get _ _ | .size _ | .drop _ => "buffer"
  | .toNumber _ | .toInteger _ | .integerText _ | .numberText _ | .write _ _ => "native"

def name : Use → String
  | .new _ => "new"
  | .set _ _ _ => "set"
  | .get _ _ => "get"
  | .size _ => "size"
  | .drop _ => "drop"
  | .toNumber _ => "to_num"
  | .toInteger _ => "to_int"
  | .integerText _ => "int_to_string"
  | .numberText _ => "num_to_string"
  | .write .output _ => "stdout"
  | .write .errors _ => "stderr"

def args : Use → List Val
  | .new w | .size w | .drop w | .toNumber w | .toInteger w | .write _ w => [.i32 w]
  | .set buffer index byte => [.i32 buffer, .i32 index, .i32 byte]
  | .get buffer index => [.i32 buffer, .i32 index]
  | .integerText n => [.i64 n]
  | .numberText x => [.f64 x]

/-- The handle that the call is given. -/
def handle? : Use → Option Handle
  | .set w _ _ | .get w _ | .size w | .drop w | .toNumber w | .toInteger w | .write _ w => some w.toInt32
  | .new _ | .integerText _ | .numberText _ => none

/-- The handle and the index that the call is given. -/
def index? : Use → Option (Handle × Int32)
  | .set buffer index _ | .get buffer index => some (buffer.toInt32, index.toInt32)
  | _ => none

theorem handle?_of_index? {u : Use} {k : Handle} {i : Int32} (given : u.index? = some (k, i)) :
    u.handle? = some k := by
  cases u with
  | set | get =>
      cases given
      rfl
  | _ => cases given

/-- The call stores a buffer, for which it looks for a handle. -/
def stores : Use → Bool
  | .new n => 0 ≤ n.toInt32
  | .integerText _ | .numberText _ => true
  | _ => false

/-- Makes the call of the function that has its name by default. There is no answer if the
search for a handle does not come to an end. -/
def perform (o : Outlet) (h : Host) (u : Use) : Response :=
  match (defaults o).get? u.space u.name with
  | none => none
  | some c =>
    match c.action with
    | .load => none
    | .run f => c.run f u.args h

/-- Makes calls one after the other. -/
def performAll (o : Outlet) : Host → List Use → Option (List (Except Failure (List Val)) × Host)
  | h, [] => some ([], h)
  | h, u :: us =>
    match u.perform o h with
    | none => none
    | some (r, h) => (performAll o h us).map fun (rs, h) => (r :: rs, h)

/-! ## What it should come to -/

/-- What a call answers, what it puts out, and what the ledger is then. What comes of a write
depends on the outlet, and on how many writes there were before it. -/
inductive Step (o : Outlet) (writes : Nat) (m : Ledger) :
    Use → Except Failure (List Val) → Array Event → Ledger → Prop
  | new {size : UInt32} {k : Handle} (count : 0 ≤ size.toInt32.toInt) (free : m.FirstFree k) :
      Step o writes m (.new size) (.ok [.ofInt32 k]) #[]
        (m.issue k ⟨Array.replicate size.toInt32.toInt.toNat 0⟩)
  | negative {size : UInt32} (below : size.toInt32.toInt < 0) :
      Step o writes m (.new size) (hostError (.invalidLength size.toInt32)) #[] m
  | set {buffer index byte : UInt32} {bytes : ByteArray} {i : Nat}
      (live : m.held buffer.toInt32 = some bytes) (place : index.toInt32.toInt = i)
      (inside : i < bytes.size) :
      Step o writes m (.set buffer index byte) (.ok []) #[]
        (m.replace buffer.toInt32 (bytes.set i (UInt8.ofNat (byte.toNat % 256))))
  | get {buffer index : UInt32} {bytes : ByteArray} {i : Nat}
      (live : m.held buffer.toInt32 = some bytes) (place : index.toInt32.toInt = i)
      (inside : i < bytes.size) :
      Step o writes m (.get buffer index) (.ok [.i32 (UInt32.ofNat bytes[i].toNat)]) #[] m
  | size {buffer n : UInt32} {bytes : ByteArray} (live : m.held buffer.toInt32 = some bytes)
      (count : n.toInt32.toInt = bytes.size) : Step o writes m (.size buffer) (.ok [.i32 n]) #[] m
  /-- No positive word tells how long the buffer is, so it is refused like one that is not live. -/
  | long {buffer : UInt32} {bytes : ByteArray} (live : m.held buffer.toInt32 = some bytes)
      (long : 2147483647 < bytes.size) :
      Step o writes m (.size buffer) (hostError (.invalidBuffer buffer.toInt32)) #[] m
  | drop {buffer : UInt32} {bytes : ByteArray} (live : m.held buffer.toInt32 = some bytes) :
      Step o writes m (.drop buffer) (.ok []) #[] (m.drop buffer.toInt32)
  | toNumber {buffer : UInt32} {bytes : ByteArray} (live : m.held buffer.toInt32 = some bytes) :
      Step o writes m (.toNumber buffer) (.ok [.f64 (.ofBytes bytes.data)]) #[] (m.drop buffer.toInt32)
  | toInteger {buffer : UInt32} {bytes : ByteArray} {n : Int64}
      (live : m.held buffer.toInt32 = some bytes) (names : integerOfBytes? bytes.data = some n) :
      Step o writes m (.toInteger buffer) (.ok [.i64 n.toUInt64]) #[] (m.drop buffer.toInt32)
  /-- The buffer is gone, though its text is returned as the reason. -/
  | conversion {buffer : UInt32} {bytes : ByteArray} (live : m.held buffer.toInt32 = some bytes)
      (other : integerOfBytes? bytes.data = none) :
      Step o writes m (.toInteger buffer) (hostError (.conversion (Utf8.decodeLossy bytes.data))) #[]
        (m.drop buffer.toInt32)
  | integerText {n : UInt64} {k : Handle} (free : m.FirstFree k) :
      Step o writes m (.integerText n) (.ok [.ofInt32 k]) #[] (m.issue k ⟨Utf8.encode (toString n.toInt64.toInt)⟩)
  | numberText {x : Binary64} {k : Handle} (free : m.FirstFree k) :
      Step o writes m (.numberText x) (.ok [.ofInt32 k]) #[] (m.issue k ⟨Utf8.encode (NumberLayout.script.render x)⟩)
  | write {s : Stream} {buffer : UInt32} {bytes : ByteArray} (live : m.held buffer.toInt32 = some bytes)
      (whole : o.answerAt writes s bytes.data = .whole) :
      Step o writes m (.write s buffer) (.ok []) #[.wrote s bytes.data] (m.drop buffer.toInt32)
  /-- The buffer is gone, though only some of its bytes were put out. -/
  | broken {s : Stream} {buffer : UInt32} {bytes : ByteArray} {count : Nat} {reason : String}
      (live : m.held buffer.toInt32 = some bytes)
      (broke : o.answerAt writes s bytes.data = .broken count reason) :
      Step o writes m (.write s buffer) (.error (.message reason)) #[.wrote s (bytes.data.extract 0 count)]
        (m.drop buffer.toInt32)
  | outside {u : Use} {k : Handle} {i : Int32} {bytes : ByteArray} (given : u.index? = some (k, i))
      (live : m.held k = some bytes) (out : i.toInt < 0 ∨ bytes.size ≤ i.toInt) :
      Step o writes m u (hostError (.bufferIndex k i)) #[] m
  | dead {u : Use} {k : Handle} (given : u.handle? = some k) (dead : m.held k = none) :
      Step o writes m u (hostError (.invalidBuffer k)) #[] m

/-- Calls with their answers and all that they put out, one after the other. -/
inductive Steps (o : Outlet) :
    Nat → Ledger → List Use → List (Except Failure (List Val)) → Array Event → Ledger → Prop
  | nil {n : Nat} {m : Ledger} : Steps o n m [] [] #[] m
  | cons {n : Nat} {m m₁ m₂ : Ledger} {u : Use} {r : Except Failure (List Val)} {out outs : Array Event}
      {us : List Use} {rs : List (Except Failure (List Val))} (first : Step o n m u r out m₁)
      (rest : Steps o (n + out.size) m₁ us rs outs m₂) : Steps o n m (u :: us) (r :: rs) (out ++ outs) m₂

/-- Why a call fails, and what it leaves of the buffers. -/
structure Regular (o : Outlet) (h : Host) (u : Use) (r : Except Failure (List Val)) (h' : Host) : Prop where
  /-- It never traps. -/
  failure : ∀ f, r = .error f → (∃ e, f = .host e) ∨ ∃ reason, f = .message reason
  /-- Only a write to a stream that breaks off fails without a cause of the host's. -/
  broken : (∃ reason, r = .error (.message reason)) ↔
    ∃ s buffer bytes count reason, u = .write s buffer ∧ h.buffers.live[buffer.toInt32]? = some bytes ∧
      o.answerAt h.writes s bytes.data = .broken count reason
  invalidBuffer : (∃ k, r = hostError (.invalidBuffer k)) ↔
    (∃ k, u.handle? = some k ∧ h.buffers.live[k]? = none) ∨
      ∃ buffer bytes, u = .size buffer ∧ h.buffers.live[buffer.toInt32]? = some bytes ∧ 2147483647 < bytes.size
  bufferIndex : (∃ k i, r = hostError (.bufferIndex k i)) ↔
    ∃ k i bytes, u.index? = some (k, i) ∧ h.buffers.live[k]? = some bytes ∧
      (i.toInt < 0 ∨ bytes.size ≤ i.toInt)
  invalidLength : (∃ n, r = hostError (.invalidLength n)) ↔
    ∃ size, u = .new size ∧ size.toInt32.toInt < 0
  failed : u.space = "buffer" → (∃ f, r = .error f) → h'.buffers = h.buffers
  dead : ∀ k, u.handle? = some k → h.buffers.live[k]? = none → h'.buffers = h.buffers
  conversion : ∀ text, r = hostError (.conversion text) →
    ∃ buffer bytes, u = .toInteger buffer ∧ h.buffers.live[buffer.toInt32]? = some bytes ∧
      text = Utf8.decodeLossy bytes.data ∧ h'.buffers.live[buffer.toInt32]? = none
  others : ∀ k, h'.buffers.live[k]? ≠ h.buffers.live[k]? →
    u.handle? = some k ∨ r = .ok [.ofInt32 k] ∧ h.buffers.live[k]? = none

/-! ## The functions -/

def capability (o : Outlet) : Use → Capability
  | .new _ => bufferNew
  | .set _ _ _ => bufferSet
  | .get _ _ => bufferGet
  | .size _ => bufferSize
  | .drop _ => bufferDrop
  | .toNumber _ => Capability.toNumber
  | .toInteger _ => Capability.toInteger
  | .integerText _ => Capability.integerText
  | .numberText _ => Capability.numberText
  | .write s _ => Capability.write o s

theorem get?_capability (o : Outlet) (u : Use) : (defaults o).get? u.space u.name = some (u.capability o) := by
  cases u with
  | write s _ => cases s <;> simp [defaults, Registry.get?_add, space, name, capability]
  | _ => simp [defaults, Registry.get?_add, space, name, capability]

variable {o : Outlet} {h h' : Host} {m : Ledger} {u : Use} {r : Except Failure (List Val)}

/-- What the host is after calls that leave these buffers and put this out. -/
def after (h : Host) (buffers : Buffers) (out : Array Event) : Host :=
  { h with buffers, writes := h.writes + out.size, trace := h.trace ++ out }

/-- A call runs the function that it names. -/
theorem perform_run {f : List Val → Host → Response} (action : (u.capability o).action = .run f) :
    u.perform o h = (u.capability o).run f u.args h := by
  rw [perform, get?_capability]
  dsimp only
  rw [action]

/-- What a function answers and leaves, the call answers and leaves. -/
theorem perform_eq {f : List Val → Host → Response} (action : (u.capability o).action = .run f)
    (r : Except Failure (List Val)) (buffers : Buffers) (out : Array Event)
    (remarks : out.filter Event.isRemark = out)
    (does : f u.args { h with trace := #[] } =
      some (r, { h with buffers, writes := h.writes + out.size, trace := out })) :
    u.perform o h = some (r.bind (u.capability o).checked, after h buffers out) := by
  rw [perform_run action]
  refine Capability.run_eq_some.mpr ⟨_, _, does, rfl, ?_⟩
  rw [after, hostAfter, remarks]

/-! ## Steps -/

/-- The call answers, puts out and changes what the ledger says. -/
def Follows (o : Outlet) (u : Use) (m : Ledger) (h : Host) (r : Except Failure (List Val)) (h' : Host) : Prop :=
  ∃ out m', u.Step o h.writes m r out m' ∧ h'.buffers.Refines m' ∧ h' = after h h'.buffers out

theorem inRange_iff {index : Int32} {size : Nat} :
    inRange index size = true ↔ ∃ i : Nat, index.toInt = i ∧ i < size := by
  have zero : (0 : Int32).toInt = 0 := rfl
  rw [inRange, Bool.and_eq_true, decide_eq_true_eq, decide_eq_true_eq, Int32.le_iff_toInt_le, zero]
  constructor
  · intro inside
    exact ⟨index.toInt.toNat, by omega, by omega⟩
  · rintro ⟨i, place, inside⟩
    omega

theorem inRange_eq_false {index : Int32} {size : Nat} (outside : inRange index size = false) :
    index.toInt < 0 ∨ size ≤ index.toInt := by
  by_contra inside
  have inside' : inRange index size = true := inRange_iff.mpr ⟨index.toInt.toNat, by omega, by omega⟩
  rw [outside] at inside'
  cases inside'

section

variable (refines : h.buffers.Refines m)

include refines

/-- A function that consumes a buffer looks for it first. -/
theorem consuming_step {results : List Wasm.ValType}
    {g : Array UInt8 → Host → Except Failure (List Val) × Host} {w : UInt32}
    (consumes : u.capability o = consuming results g) (given : u.args = [.i32 w])
    (names : u.handle? = some w.toInt32) (performed : u.perform o h = some (r, h'))
    (rest : ∀ bytes, m.held w.toInt32 = some bytes → ∃ r out, out.filter Event.isRemark = out ∧
      (∀ host : Host, host.trace = #[] → host.writes = h.writes →
        g bytes.data host = (r, { host with writes := h.writes + out.size, trace := out })) ∧
        u.Step o h.writes m (r.bind (u.capability o).checked) out (m.drop w.toInt32)) :
    u.Follows o m h r h' := by
  have action := congrArg Capability.action consumes
  cases live : m.held w.toInt32 with
  | none =>
      have does := perform_eq action (hostError (.invalidBuffer w.toInt32)) h.buffers #[] rfl (by
        rw [given]
        dsimp only [Host.take]
        rw [refines.take_dead live]
        rfl)
      cases does.symm.trans performed
      exact ⟨#[], m, .dead names live, refines, rfl⟩
  | some bytes =>
      obtain ⟨r, out, remarks, rest, step⟩ := rest bytes live
      have does := perform_eq action r { h.buffers with live := h.buffers.live.erase w.toInt32 } out remarks (by
        rw [given]
        dsimp only [Host.take]
        rw [refines.take_live live]
        exact congrArg some (rest _ rfl rfl))
      cases does.symm.trans performed
      exact ⟨_, _, step, refines.take live, rfl⟩

/-- A function that stores a buffer does so under the first handle that is free. -/
theorem storing_step {f : List Val → Host → Response} {bytes : ByteArray}
    (action : (u.capability o).action = .run f) (results : (u.capability o).results = [.i32])
    (stores : ∀ h, f u.args h = freshBuffer h bytes) (performed : u.perform o h = some (r, h'))
    (step : ∀ {k}, m.FirstFree k → u.Step o h.writes m (.ok [.ofInt32 k]) #[] (m.issue k bytes)) :
    u.Follows o m h r h' := by
  have free : h.buffers.fresh ∉ h.buffers.live := by
    intro busy
    rw [perform_run action] at performed
    obtain ⟨_, _, ran, -⟩ := Capability.run_eq_some.mp performed
    rw [stores, freshBuffer, Host.insert] at ran
    dsimp only at ran
    rw [Buffers.insert, if_pos busy] at ran
    cases ran
  have first := refines.firstFree_fresh free
  have does := perform_eq (h := h) action (.ok [.ofInt32 h.buffers.fresh]) _ #[] rfl (by
    rw [stores, freshBuffer, Host.insert]
    dsimp only
    rw [Buffers.insert_of_free free]
    rfl)
  have checked : (u.capability o).checked [.ofInt32 h.buffers.fresh] = .ok [.ofInt32 h.buffers.fresh] := by
    rw [Capability.checked, results]
    rfl
  cases does.symm.trans performed
  refine ⟨_, _, ?_, refines.insert first, rfl⟩
  rw [Except.bind, checked]
  exact step first

/-- A function that only looks at the buffers leaves the ledger as it was. -/
theorem looking_step {f : List Val → Host → Response} (action : (u.capability o).action = .run f)
    (performed : u.perform o h = some (r, h')) (answer : Except Failure (List Val))
    (looks : f u.args { h with trace := #[] } = some (answer, { h with trace := #[] }))
    (step : u.Step o h.writes m (answer.bind (u.capability o).checked) #[] m) : u.Follows o m h r h' := by
  cases (perform_eq action answer h.buffers #[] rfl looks).symm.trans performed
  exact ⟨#[], m, step, refines, rfl⟩

theorem new_step {n : UInt32} (performed : (new n).perform o h = some (r, h')) :
    (new n).Follows o m h r h' := by
  by_cases below : n.toInt32 < 0
  · exact looking_step refines rfl performed (hostError (.invalidLength n.toInt32)) (if_pos below)
      (.negative (Int32.lt_iff_toInt_lt.mp below))
  · have count : 0 ≤ n.toInt32 := Int32.not_lt.mp below
    exact storing_step refines rfl rfl (fun h => if_neg below) performed
      fun free => .new (Int32.le_iff_toInt_le.mp count) free

/-- A function that looks its buffer up fails if it is not live, before it looks at anything else. -/
theorem getting_step {f : List Val → Host → Response} {k : Handle} (action : (u.capability o).action = .run f)
    (names : u.handle? = some k) (performed : u.perform o h = some (r, h'))
    (missing : ∀ host e, host.buffers.get k = .error e → f u.args host = some (hostError e, host))
    (found : ∀ bytes, m.held k = some bytes → u.Follows o m h r h') : u.Follows o m h r h' := by
  cases live : m.held k with
  | none =>
      exact looking_step refines action performed (hostError (.invalidBuffer k))
        (missing _ _ (refines.get_dead live)) (.dead names live)
  | some bytes => exact found bytes live

/-- If it is given an index, that is what it looks at next. -/
theorem indexed_step {f : List Val → Host → Response} {k : Handle} {i : Int32}
    (action : (u.capability o).action = .run f) (given : u.index? = some (k, i))
    (performed : u.perform o h = some (r, h'))
    (missing : ∀ host e, host.buffers.get k = .error e → f u.args host = some (hostError e, host))
    (outside : ∀ host bytes, host.buffers.get k = .ok bytes → inRange i bytes.size = false →
      f u.args host = some (hostError (.bufferIndex k i), host))
    (inside : ∀ bytes n, m.held k = some bytes → inRange i bytes.size = true → i.toInt = (n : Nat) →
      n < bytes.size → u.Follows o m h r h') : u.Follows o m h r h' := by
  refine getting_step refines action (handle?_of_index? given) performed missing fun bytes live => ?_
  cases within : inRange i bytes.size with
  | false =>
      exact looking_step refines action performed (hostError (.bufferIndex k i))
        (outside _ _ (refines.get_live live) within) (.outside given live (inRange_eq_false within))
  | true =>
      obtain ⟨n, place, below⟩ := inRange_iff.mp within
      exact inside bytes n live within place below

theorem set_step {buffer index byte : UInt32} (performed : (set buffer index byte).perform o h = some (r, h')) :
    (set buffer index byte).Follows o m h r h' := by
  refine indexed_step refines rfl rfl performed (fun host e gone => ?_) (fun host bytes live outside => ?_)
    fun bytes i live inside place below => ?_
  · dsimp only [args]
    rw [gone]
    rfl
  · dsimp only [args]
    rw [live]
    exact if_neg (Bool.eq_false_iff.mp outside)
  · have does := perform_eq (o := o) (u := set buffer index byte) (h := h) rfl (.ok [])
      (h.buffers.modify buffer.toInt32 fun bytes => bytes.set! i byte.toUInt8) #[] rfl (by
        dsimp only [args]
        rw [refines.get_live live]
        dsimp only [Except.map]
        rw [if_pos inside, place]
        rfl)
    cases does.symm.trans performed
    have low : UInt8.ofNat (byte.toNat % 256) = byte.toUInt8 := by
      rw [← UInt8.toNat_inj, UInt8.toNat_ofNat', UInt32.toNat_toUInt8]
      exact Nat.mod_mod _ _
    have stored : bytes.set! i byte.toUInt8 = bytes.set i (UInt8.ofNat (byte.toNat % 256)) below := by
      rw [low]
      exact congrArg ByteArray.mk (dif_pos below)
    refine ⟨#[], _, .set live place below, ?_, rfl⟩
    rw [← stored]
    exact refines.write live fun bytes => bytes.set! i byte.toUInt8

theorem get_step {buffer index : UInt32} (performed : (get buffer index).perform o h = some (r, h')) :
    (get buffer index).Follows o m h r h' := by
  refine indexed_step refines rfl rfl performed (fun host e gone => ?_) (fun host bytes live outside => ?_)
    fun bytes i live inside place below => ?_
  · dsimp only [args]
    rw [gone]
  · dsimp only [args]
    rw [live]
    exact if_neg (Bool.eq_false_iff.mp outside)
  · have word : bytes[i].toUInt32 = UInt32.ofNat bytes[i].toNat := by
      rw [← UInt32.toNat_inj, UInt8.toNat_toUInt32, UInt32.toNat_ofNat', Nat.mod_eq_of_lt]
      exact Nat.lt_trans bytes[i].toNat_lt (by decide)
    refine looking_step refines rfl performed (.ok [.i32 (UInt32.ofNat bytes[i].toNat)]) ?_
      (.get live place below)
    dsimp only [args]
    rw [refines.get_live live]
    dsimp only
    rw [if_pos inside, place, Int.toNat_natCast, getElem?_pos bytes i below, Option.getD_some, word]

omit refines

theorem size_long {buffer : UInt32} {bytes : ByteArray} (live : h.buffers.live[buffer.toInt32]? = some bytes)
    (long : 2147483647 < bytes.size) :
    (size buffer).perform o h = some (hostError (.invalidBuffer buffer.toInt32), h) := by
  have does := perform_eq (o := o) (u := size buffer) (h := h) rfl (hostError (.invalidBuffer buffer.toInt32))
    h.buffers #[] rfl (by
      dsimp only [args]
      rw [Buffers.get_eq_ok.mpr live]
      exact if_neg (Int.not_le.mpr (Int.ofNat_lt.mpr long)))
  rw [does]
  simp [after, hostError, Except.bind]

include refines

theorem size_step {buffer : UInt32} (performed : (size buffer).perform o h = some (r, h')) :
    (size buffer).Follows o m h r h' := by
  refine getting_step refines rfl rfl performed (fun host e gone => ?_) fun bytes live => ?_
  · dsimp only [args]
    rw [gone]
  by_cases short : (bytes.size : Int) ≤ Int32.maxValue.toInt
  · have count : (UInt32.ofNat bytes.size).toInt32.toInt = bytes.size := by
      change (bytes.size : Int) ≤ 2147483647 at short
      have same : (UInt32.ofNat bytes.size).toNat = bytes.size := by
        rw [UInt32.toNat_ofNat', Nat.mod_eq_of_lt (by omega)]
      rw [Support.Work.toInt_toInt32 (by omega), same]
    refine looking_step refines rfl performed (.ok [.i32 (UInt32.ofNat bytes.size)]) ?_ (.size live count)
    dsimp only [args]
    rw [refines.get_live live]
    exact if_pos short
  · have long : 2147483647 < bytes.size := Int.ofNat_lt.mp (Int.not_le.mp short)
    cases (size_long ((refines.held _).trans live) long).symm.trans performed
    exact ⟨#[], m, .long live long, refines, by simp [after]⟩

theorem write_step {s : Stream} {buffer : UInt32} (performed : (write s buffer).perform o h = some (r, h')) :
    (write s buffer).Follows o m h r h' := by
  refine consuming_step refines rfl rfl rfl performed fun bytes live => ?_
  cases comes : o.answerAt h.writes s bytes.data with
  | whole =>
      refine ⟨.ok [], #[.wrote s bytes.data], rfl, ?_, .write live comes⟩
      intro host silent counted
      rw [Host.write, counted, comes]
      dsimp only [Host.record]
      rw [silent]
      rfl
  | broken count reason =>
      refine ⟨.error (.message reason), #[.wrote s (bytes.data.extract 0 count)], rfl, ?_, .broken live comes⟩
      intro host silent counted
      rw [Host.write, counted, comes]
      dsimp only [Host.record]
      rw [silent]
      rfl

theorem perform_step (performed : u.perform o h = some (r, h')) : u.Follows o m h r h' := by
  have quiet {host : Host} (silent : host.trace = #[]) (counted : host.writes = h.writes) :
      host = { host with writes := h.writes, trace := #[] } := by
    rw [← silent, ← counted]
  cases u with
  | new n => exact new_step refines performed
  | set buffer index byte => exact set_step refines performed
  | get buffer index => exact get_step refines performed
  | size buffer => exact size_step refines performed
  | drop buffer =>
      exact consuming_step refines rfl rfl rfl performed fun bytes live =>
        ⟨.ok [], #[], rfl, fun host silent counted => congrArg (Prod.mk _) (quiet silent counted), .drop live⟩
  | toNumber buffer =>
      exact consuming_step refines rfl rfl rfl performed fun bytes live =>
        ⟨.ok [.f64 (.ofBytes bytes.data)], #[], rfl,
          fun host silent counted => congrArg (Prod.mk _) (quiet silent counted), .toNumber live⟩
  | toInteger buffer =>
      refine consuming_step refines rfl rfl rfl performed fun bytes live => ?_
      cases names : integerOfBytes? bytes.data with
      | some n =>
          refine ⟨.ok [.i64 n.toUInt64], #[], rfl, ?_, .toInteger live names⟩
          exact fun host silent counted => congrArg (Prod.mk _) (quiet silent counted)
      | none =>
          refine ⟨hostError (.conversion (Utf8.decodeLossy bytes.data)), #[], rfl, ?_, .conversion live names⟩
          exact fun host silent counted => congrArg (Prod.mk _) (quiet silent counted)
  | integerText n => exact storing_step refines rfl rfl (fun h => rfl) performed .integerText
  | numberText x => exact storing_step refines rfl rfl (fun h => rfl) performed .numberText
  | write s buffer => exact write_step refines performed

end

theorem performAll_steps {us : List Use} {rs : List (Except Failure (List Val))}
    (refines : h.buffers.Refines m) (done : performAll o h us = some (rs, h')) :
    ∃ out m', Steps o h.writes m us rs out m' ∧ h'.buffers.Refines m' ∧ h' = after h h'.buffers out := by
  induction us generalizing h m rs with
  | nil =>
      cases done
      exact ⟨#[], m, .nil, refines, by simp [after]⟩
  | cons u us ih =>
      rw [performAll] at done
      split at done
      · cases done
      · next r h₁ first =>
          obtain ⟨⟨rs', h₂⟩, rest, same⟩ := Option.map_eq_some_iff.mp done
          cases same
          obtain ⟨out, m₁, step, refines₁, left⟩ := perform_step refines first
          obtain ⟨outs, m₂, steps, refines₂, left₂⟩ := ih refines₁ rest
          have counted : h₁.writes = h.writes + out.size := congrArg Host.writes left
          rw [counted] at steps
          refine ⟨out ++ outs, m₂, .cons step steps, refines₂, ?_⟩
          rw [left₂, left]
          simp [after, Nat.add_assoc]

/-! ## Failures and frames -/

namespace Step

variable {m' : Ledger} {out : Array Event} {k : Handle} {n : Nat} (step : u.Step o n m r out m')

include step

theorem frame (differs : m'.held k ≠ m.held k) :
    u.handle? = some k ∨ r = .ok [.ofInt32 k] ∧ m.held k = none := by
  cases step with
  | new _ free | integerText free | numberText free =>
      obtain rfl := Ledger.issue_frame differs
      exact .inr ⟨rfl, free.free⟩
  | set => exact .inl (congrArg some (Ledger.replace_frame differs).symm)
  | drop | toNumber | toInteger | conversion | write | broken =>
      exact .inl (congrArg some (Ledger.drop_frame differs).symm)
  | negative | get | size | long | outside | dead => exact absurd rfl differs

theorem failure {f : Failure} (failed : r = .error f) : (∃ e, f = .host e) ∨ ∃ reason, f = .message reason := by
  cases step with
  | negative | conversion | long | outside | dead =>
      cases failed
      exact .inl ⟨_, rfl⟩
  | broken =>
      cases failed
      exact .inr ⟨_, rfl⟩
  | _ => cases failed

theorem broken_iff : (∃ reason, r = .error (.message reason)) ↔
    ∃ s buffer bytes count reason, u = .write s buffer ∧ m.held buffer.toInt32 = some bytes ∧
      o.answerAt n s bytes.data = .broken count reason := by
  constructor
  · rintro ⟨reason, same⟩
    cases step with
    | broken live broke => exact ⟨_, _, _, _, _, rfl, live, broke⟩
    | _ => cases same
  · rintro ⟨s, buffer, bytes, count, reason, rfl, live, broke⟩
    cases step with
    | write live' whole =>
        cases live.symm.trans live'
        cases whole.symm.trans broke
    | broken => exact ⟨_, rfl⟩
    | outside given => cases given
    | dead given dead =>
        cases given
        cases dead.symm.trans live

theorem invalidBuffer : (∃ k, r = hostError (.invalidBuffer k)) ↔
    (∃ k, u.handle? = some k ∧ m.held k = none) ∨
      ∃ buffer bytes, u = .size buffer ∧ m.held buffer.toInt32 = some bytes ∧ 2147483647 < bytes.size := by
  constructor
  · rintro ⟨k, same⟩
    cases step with
    | dead given dead => exact .inl ⟨_, given, dead⟩
    | long live long => exact .inr ⟨_, _, rfl, live, long⟩
    | _ => cases same
  · rintro (⟨k, given, dead⟩ | ⟨buffer, bytes, rfl, live, long⟩)
    · cases step with
      | new | negative | integerText | numberText => cases given
      | set live | get live | size live | long live | drop live | toNumber live | toInteger live
      | conversion live | write live | broken live =>
          cases given
          cases dead.symm.trans live
      | outside index live =>
          cases given.symm.trans (handle?_of_index? index)
          cases dead.symm.trans live
      | dead => exact ⟨_, rfl⟩
    · cases step with
      | @size _ n _ live' count =>
          cases live.symm.trans live'
          have bound := Int32.toInt_le n.toInt32
          change n.toInt32.toInt ≤ 2147483647 at bound
          omega
      | long => exact ⟨_, rfl⟩
      | outside given => cases given
      | dead => exact ⟨_, rfl⟩

theorem bufferIndex : (∃ k i, r = hostError (.bufferIndex k i)) ↔
    ∃ k i bytes, u.index? = some (k, i) ∧ m.held k = some bytes ∧ (i.toInt < 0 ∨ bytes.size ≤ i.toInt) := by
  constructor
  · rintro ⟨k, i, same⟩
    cases step with
    | outside given live out => exact ⟨_, _, _, given, live, out⟩
    | _ => cases same
  · rintro ⟨k, i, bytes, given, live, out⟩
    cases step with
    | set live' place inside | get live' place inside =>
        cases given
        cases live.symm.trans live'
        omega
    | outside => exact ⟨_, _, rfl⟩
    | dead names dead =>
        cases names.symm.trans (handle?_of_index? given)
        cases dead.symm.trans live
    | _ => cases given

theorem invalidLength : (∃ n, r = hostError (.invalidLength n)) ↔
    ∃ n, u = .new n ∧ n.toInt32.toInt < 0 := by
  constructor
  · rintro ⟨n, same⟩
    cases step with
    | negative below => exact ⟨_, rfl, below⟩
    | _ => cases same
  · rintro ⟨n, rfl, below⟩
    cases step with
    | new count => omega
    | negative => exact ⟨_, rfl⟩
    | outside given | dead given => cases given

/-- A function of buffers that fails changes nothing, and no more does a call that names no
live buffer. -/
theorem unchanged (refused : u.space = "buffer" ∧ (∃ f, r = .error f) ∨
    ∃ k, u.handle? = some k ∧ m.held k = none) : m' = m := by
  cases step with
  | negative | get | size | long | outside | dead => rfl
  | new | integerText | numberText =>
      rcases refused with ⟨_, _, same⟩ | ⟨_, given, _⟩
      · cases same
      · cases given
  | set live | drop live | toNumber live | toInteger live | write live =>
      rcases refused with ⟨_, _, same⟩ | ⟨_, given, dead⟩
      · cases same
      · cases given
        cases dead.symm.trans live
  | conversion live | broken live =>
      rcases refused with ⟨buffers, _⟩ | ⟨_, given, dead⟩
      · simp [space] at buffers
      · cases given
        cases dead.symm.trans live

theorem of_conversion {text : String} (failed : r = hostError (.conversion text)) :
    ∃ buffer bytes, u = .toInteger buffer ∧ m.held buffer.toInt32 = some bytes ∧
      text = Utf8.decodeLossy bytes.data ∧ m'.held buffer.toInt32 = none := by
  cases step with
  | conversion live =>
      cases failed
      exact ⟨_, _, rfl, live, rfl, m.drop_dead _⟩
  | _ => cases failed

omit step

theorem regular (step : u.Step o h.writes m r out m') (refines : h.buffers.Refines m)
    (refines' : h'.buffers.Refines m') : u.Regular o h r h' where
  failure _ failed := step.failure failed
  broken := by
    simp only [refines.held]
    exact step.broken_iff
  invalidBuffer := by
    simp only [refines.held]
    exact step.invalidBuffer
  bufferIndex := by
    simp only [refines.held]
    exact step.bufferIndex
  invalidLength := step.invalidLength
  failed buffers failed := by
    obtain rfl := step.unchanged (.inl ⟨buffers, failed⟩)
    exact refines'.unique refines
  dead k given dead := by
    obtain rfl := step.unchanged (.inr ⟨k, given, (refines.held k).symm.trans dead⟩)
    exact refines'.unique refines
  conversion text failed := by
    simp only [refines.held, refines'.held]
    exact step.of_conversion failed
  others k := by
    simp only [refines.held, refines'.held]
    exact step.frame

end Step

/-- A call has an answer, unless it stores a buffer and all positive handles are live. -/
theorem perform_isSome (room : u.stores = true → h.buffers.size < 2147483647) :
    (u.perform o h).isSome = true := by
  have returns {f : List Val → Host → Response} (action : (u.capability o).action = .run f)
      (does : ∀ host : Host, host.buffers = h.buffers → (f u.args host).isSome = true) :
      (u.perform o h).isSome = true := by
    rw [perform_run action, Capability.run_eq, Option.isSome_map]
    exact does _ rfl
  have stores (bytes : ByteArray) (stores : u.stores = true) (host : Host) (same : host.buffers = h.buffers) :
      (freshBuffer host bytes).isSome = true := by
    rw [freshBuffer, Option.isSome_map, Host.insert, Option.isSome_map, same]
    exact Buffers.insert_isSome (room stores) bytes
  cases u with
  | new n =>
      refine returns rfl fun host same => ?_
      dsimp only [args]
      split
      · rfl
      · next positive => exact stores _ (decide_eq_true (Int32.not_lt.mp positive)) host same
  | set | get | size =>
      refine returns rfl fun host _ => ?_
      dsimp only [args]
      split
      · rfl
      · split <;> rfl
  | drop | toNumber | toInteger | write =>
      refine returns rfl fun host _ => ?_
      dsimp only [args]
      split <;> rfl
  | integerText | numberText => exact returns rfl fun host same => stores _ rfl host same

/-- The functions of buffers, numbers and streams answer as a ledger of what each live handle
holds, whatever the host was like before, as a session's guests or the embedder's own functions may
have left it. In the state that is left then, a call of any of them has an answer, as long as there
is a handle for the buffer that it may store; and if it fails, it does so for a reason that
the ledger gives, or because a stream breaks off. -/
theorem uses_refine {o : Outlet} {h₀ h : Host} {us : List Use} {rs : List (Except Failure (List Val))}
    (done : performAll o h₀ us = some (rs, h)) :
    (∃ out m, Steps o h₀.writes h₀.buffers.ledger us rs out m ∧ h.buffers.Refines m ∧
      h = after h₀ h.buffers out) ∧
    ∀ u : Use, ((u.stores = true → h.buffers.size < 2147483647) → (u.perform o h).isSome = true) ∧
      ∀ r h', u.perform o h = some (r, h') → u.Regular o h r h' := by
  obtain ⟨out, m, steps, refines, left⟩ := performAll_steps h₀.buffers.refines_ledger done
  refine ⟨⟨out, m, steps, refines, left⟩, fun u => ⟨perform_isSome, fun r h' performed => ?_⟩⟩
  obtain ⟨_, m', step, refines', _⟩ := perform_step refines performed
  exact step.regular refines refines'

/-- A byte that is stored and looked at, an index too large, a text that names no integer and is
gone all the same, a size that is negative, and a stream that takes one byte and breaks off. -/
def elevenUses : List Use :=
  [.new 2, .set 1 1 511, .get 1 1, .get 1 2, .numberText ⟨0x3FE0000000000000⟩, .size 2, .toInteger 2,
    .drop 2, .new 0xFFFFFFFF, .write .output 1, .size 1]

def elevenAnswers : List (Except Failure (List Val)) :=
  [.ok [.i32 1], .ok [], .ok [.i32 255], hostError (.bufferIndex 1 2), .ok [.i32 2], .ok [.i32 3],
    hostError (.conversion "0.5"), hostError (.invalidBuffer 2), hostError (.invalidLength (-1)),
    .error (.message "closed"), hostError (.invalidBuffer 1)]

/-- An outlet that takes one byte of the first write and no more. -/
def closing : Outlet := ⟨fun _ _ _ => .broken 1 "closed"⟩

theorem eleven_refined : ∃ s₀ host h,
    Session.openWith 0 0 Builtin.compiler { outlet := closing, options := { standalone := true } } =
      some (.ok s₀, host) ∧
      performAll closing s₀.store.host elevenUses = some (elevenAnswers, h) ∧
      ∃ out m, Steps closing s₀.store.host.writes s₀.store.host.buffers.ledger elevenUses elevenAnswers out m ∧
        h.buffers.Refines m := by
  let config : Config := { outlet := closing, options := { standalone := true } }
  let s₀ := Session.bare 0 Builtin.compiler config
  have opened : Session.openWith 0 0 Builtin.compiler config = some (.ok s₀, s₀.store.host) := rfl
  have answers : (performAll closing ({} : Host) elevenUses).map Prod.fst = some elevenAnswers := by decide +kernel
  obtain ⟨⟨rs, h⟩, done, same⟩ := Option.map_eq_some_iff.mp answers
  cases same
  have empty : s₀.store.host = {} := Session.bare_host 0 Builtin.compiler config
  rw [← empty] at done
  obtain ⟨⟨out, m, steps, refines, _⟩, _⟩ := uses_refine done
  exact ⟨s₀, _, h, opened, done, out, m, steps, refines⟩

/-- What a text of one letter is encoded as has a byte for each time that it stands there. -/
theorem size_encode_replicate (n : Nat) : (Utf8.encode (String.ofList (List.replicate n 'a'))).size = n := by
  rw [← Array.length_toList, Utf8.toList_encode, String.toList_ofList]
  simp [show 'a'.utf8Size = 1 from rfl]

/-- A text is passed to a guest in a buffer. If it has 2147483648 letters, the buffer is live, but
the guest is told that it is not when it asks for its length. -/
theorem overlong_refused : ∃ text s₀ host s,
    text = String.ofList (List.replicate 2147483648 'a') ∧
      Session.openWith 0 0 Builtin.compiler { options := { standalone := true } } = some (.ok s₀, host) ∧
      (Boundary.storeBuffer ⟨Utf8.encode text⟩).run s₀.store = some (.ok 1, s) ∧
      s.host.buffers.live[(1 : Handle)]? = some ⟨Utf8.encode text⟩ ∧
      (size 1).perform {} s.host = some (hostError (.invalidBuffer 1), s.host) := by
  obtain ⟨text, same⟩ : ∃ text, text = String.ofList (List.replicate 2147483648 'a') := ⟨_, rfl⟩
  have length : (Utf8.encode text).size = 2147483648 := by rw [same, size_encode_replicate]
  let config : Config := { options := { standalone := true } }
  let s₀ := Session.bare 0 Builtin.compiler config
  have opened : Session.openWith 0 0 Builtin.compiler config = some (.ok s₀, s₀.store.host) := rfl
  have empty : s₀.store.host = {} := Session.bare_host 0 Builtin.compiler config
  have free : Buffers.empty.fresh ∉ Buffers.empty.live := Std.ExtTreeMap.not_mem_empty
  have first : Buffers.empty.fresh = 1 := by decide
  obtain ⟨buffers, made⟩ : ∃ buffers, Buffers.empty.insert ⟨Utf8.encode text⟩ = some (1, buffers) :=
    ⟨_, Buffers.insert_eq_some.mpr ⟨free, first.symm, rfl⟩⟩
  let s : Store := { s₀.store with host := { buffers } }
  have stored : (Boundary.storeBuffer ⟨Utf8.encode text⟩).run s₀.store = some (.ok 1, s) := by
    rw [Boundary.storeBuffer_run, empty, Host.insert, made]
    rfl
  have live : s.host.buffers.live[(1 : Handle)]? = some ⟨Utf8.encode text⟩ := by
    obtain ⟨-, -, rfl⟩ := Buffers.insert_eq_some.mp made
    change (Buffers.empty.live.insert Buffers.empty.fresh _)[(1 : Handle)]? = _
    rw [first, Std.ExtTreeMap.getElem?_insert_self]
  have long : 2147483647 < (ByteArray.mk (Utf8.encode text)).size := by
    change 2147483647 < (Utf8.encode text).size
    omega
  exact ⟨text, s₀, _, s, same, opened, stored, live, size_long live long⟩

end Use

end Capability

end GuestHost
