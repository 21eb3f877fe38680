/-! UTF-8 decoding that never fails: every maximal part of a byte string that no
character can use becomes one replacement character. -/

namespace GuestHost.Utf8

/-- What a started character still expects: the number of bytes owed, the range
the next one must lie in, and the code point bits read so far. -/
structure Partial where
  owed : Nat
  low : UInt8
  high : UInt8
  code : Nat
  deriving DecidableEq, Repr

/-- The first byte of a character either is the whole character, starts a longer
one, or cannot stand there. -/
inductive Lead
  | char (c : Char)
  | more (p : Partial)
  | bad
  deriving DecidableEq, Repr

/-- The character that stands for an undecodable part. -/
def replacement : Char := '\uFFFD'

def lead (b : UInt8) : Lead :=
  if b < 0x80 then .char (Char.ofNat b.toNat)
  else if b < 0xC2 then .bad
  else if b < 0xE0 then .more ⟨1, 0x80, 0xBF, b.toNat - 0xC0⟩
  else if b = 0xE0 then .more ⟨2, 0xA0, 0xBF, 0⟩
  else if b = 0xED then .more ⟨2, 0x80, 0x9F, 0xD⟩
  else if b < 0xF0 then .more ⟨2, 0x80, 0xBF, b.toNat - 0xE0⟩
  else if b = 0xF0 then .more ⟨3, 0x90, 0xBF, 0⟩
  else if b < 0xF4 then .more ⟨3, 0x80, 0xBF, b.toNat - 0xF0⟩
  else if b = 0xF4 then .more ⟨3, 0x80, 0x8F, 4⟩
  else .bad

/-- A byte continues a started character exactly when it lies in the range the
character expects next. -/
def Partial.accepts (p : Partial) (b : UInt8) : Bool :=
  p.low ≤ b && b ≤ p.high

/-- The state after an accepted byte, or the finished character. -/
def Partial.push (p : Partial) (b : UInt8) : Lead :=
  let code := p.code * 64 + (b.toNat - 0x80)
  if p.owed ≤ 1 then .char (Char.ofNat code) else .more ⟨p.owed - 1, 0x80, 0xBF, code⟩

/-- The state of a decoding run: the text so far and the started character, if any. -/
structure Decoder where
  text : String := ""
  started : Option Partial := none

/-- Reads a byte between two characters. -/
def Decoder.begin (d : Decoder) : Lead → Decoder
  | .char c => ⟨d.text.push c, none⟩
  | .more p => ⟨d.text, some p⟩
  | .bad => ⟨d.text.push replacement, none⟩

/-- Reads one byte. A byte that cannot continue the started character ends an
undecodable part before that byte, which is then read afresh. -/
def Decoder.step (d : Decoder) (b : UInt8) : Decoder :=
  match d with
  | ⟨text, none⟩ => Decoder.begin ⟨text, none⟩ (lead b)
  | ⟨text, some p⟩ =>
    if p.accepts b then Decoder.begin ⟨text, none⟩ (p.push b)
    else Decoder.begin ⟨text.push replacement, none⟩ (lead b)

/-- The text of a run. A character still unfinished at the end is undecodable. -/
def Decoder.finish (d : Decoder) : String :=
  match d.started with
  | none => d.text
  | some _ => d.text.push replacement

/-- The text of any byte string, each maximal undecodable part replaced. -/
def decodeLossy (bytes : Array UInt8) : String :=
  (bytes.foldl Decoder.step {}).finish

/-- The text of a byte string that is well formed throughout. -/
def decode? (bytes : Array UInt8) : Option String :=
  String.fromUTF8? ⟨bytes⟩

/-- The bytes of a text. -/
def encode (s : String) : Array UInt8 :=
  s.toUTF8.data

end GuestHost.Utf8
