import GuestHost.Wasm.Types
import Std.Data.ExtTreeMap

/-! Linear memory, and the little-endian words it holds. A byte that was never
written is zero. -/

namespace GuestHost.Machine

open Wasm

/-- The lowest `n` bytes of a word, the lowest first. -/
def wordBytes : Nat → Nat → List UInt8
  | 0, _ => []
  | n + 1, w => UInt8.ofNat w :: wordBytes n (w / 256)

/-- The word of a list of bytes, the lowest first. -/
def bytesWord : List UInt8 → Nat
  | [] => 0
  | b :: bs => b.toNat + 256 * bytesWord bs

@[simp] theorem length_wordBytes (n w : Nat) : (wordBytes n w).length = n := by
  induction n generalizing w with
  | zero => rfl
  | succ n ih => simp [wordBytes, ih]

theorem bytesWord_wordBytes (n w : Nat) : bytesWord (wordBytes n w) = w % Nat.pow 256 n := by
  induction n generalizing w with
  | zero => exact (Nat.mod_one w).symm
  | succ n ih =>
    have h : (UInt8.ofNat w).toNat = w % 256 := UInt8.toNat_ofNat'
    change _ = w % (Nat.pow 256 n * 256)
    rw [wordBytes, bytesWord, ih, h, Nat.mul_comm (Nat.pow 256 n) 256, Nat.mod_mul]

/-- A memory: its size in pages, the bound on it, and the bytes that were written. -/
structure Memory where
  pages : Nat
  max : Option Nat
  bytes : Std.ExtTreeMap Nat UInt8 := {}

namespace Memory

/-- The number of bytes. -/
def size (m : Memory) : Nat := m.pages * pageSize

/-- The byte at an address, zero if it was never written. -/
def byte (m : Memory) (a : Nat) : UInt8 := m.bytes.getD a 0

/-- The `n` bytes from an address on, if all of them lie inside. -/
def read? (m : Memory) (a n : Nat) : Option (List UInt8) :=
  if a + n ≤ m.size then some ((List.range' a n).map m.byte) else none

/-- Writes bytes from an address on, inside or not. -/
def put (m : Memory) : Nat → List UInt8 → Memory
  | _, [] => m
  | a, b :: bs => put { m with bytes := m.bytes.insert a b } (a + 1) bs

/-- The memory with bytes written from an address on, if all of them lie inside. -/
def write? (m : Memory) (a : Nat) (bs : List UInt8) : Option Memory :=
  if a + bs.length ≤ m.size then some (m.put a bs) else none

/-- The number of pages the memory can grow to. -/
def bound (m : Memory) : Nat := min (m.max.getD maxPages) maxPages

/-- The memory with more pages, if it may have as many. -/
def grow? (m : Memory) (n : Nat) : Option Memory :=
  if m.pages + n ≤ m.bound then some { m with pages := m.pages + n } else none

@[simp] theorem byte_insert (m : Memory) (a i : Nat) (b : UInt8) :
    { m with bytes := m.bytes.insert a b }.byte i = if a = i then b else m.byte i := by
  simp only [byte, Std.ExtTreeMap.getD_insert, Std.LawfulEqCmp.compare_eq_iff_eq]

@[simp] theorem size_put (m : Memory) (a : Nat) (bs : List UInt8) : (m.put a bs).size = m.size := by
  induction bs generalizing m a with
  | nil => rfl
  | cons b bs ih => rw [put, ih]; rfl

/-- After a write, addresses in its range hold the new bytes and all others the old. -/
theorem byte_put (m : Memory) (a i : Nat) (bs : List UInt8) :
    (m.put a bs).byte i =
      if a ≤ i then if h : i - a < bs.length then bs[i - a] else m.byte i else m.byte i := by
  induction bs generalizing m a with
  | nil => simp [put]
  | cons b bs ih =>
    rw [put, ih, byte_insert]
    by_cases h : a = i
    · subst h
      have : ¬ a + 1 ≤ a := by omega
      simp [this]
    · by_cases hle : a ≤ i
      · have hlt : a + 1 ≤ i := by omega
        have : i - a = (i - (a + 1)) + 1 := by omega
        simp [h, hle, hlt, this]
      · have : ¬ a + 1 ≤ i := by omega
        simp [h, hle, this]

end Memory

end GuestHost.Machine
