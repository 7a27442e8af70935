import GlobalMap.Bytes
import GlobalMap.Text.Hex
/-!
Decoding UTF-8, with the place and kind of the first damage.

The first byte of a character says how many follow, and narrows the range of the second so that
every character has one encoding and surrogates have none. Damage spans the bytes that could still
have begun a character.
-/
namespace GlobalMap.Text.Utf8

/-- Why bytes are no character. -/
inductive Reason where
  /-- No character starts with this byte. -/
  | start
  /-- The character is broken off by a byte that cannot continue it. -/
  | continuation
  /-- The character is broken off by the end of the bytes. -/
  | ending
  deriving DecidableEq, Repr

def Reason.message : Reason → String
  | start => "invalid start byte"
  | continuation => "invalid continuation byte"
  | ending => "unexpected end of data"

/-- The first damage in bytes: where it starts, the byte there, and how many bytes it spans. -/
structure Damage where
  position : Nat
  byte : UInt8
  width : Nat
  reason : Reason
  deriving DecidableEq, Repr

def Damage.message (d : Damage) : String :=
  if d.width = 1 then
    s!"'utf-8' codec can't decode byte 0x{hexPadded 2 d.byte.toNat} in position {d.position}: " ++
      d.reason.message
  else
    s!"'utf-8' codec can't decode bytes in position {d.position}-{d.position + d.width - 1}: " ++
      d.reason.message

/-- How a character goes on behind its first byte: the payload of that byte, the range of the second
byte, and the number of bytes behind the second. -/
structure Lead where
  payload : Nat
  low : UInt8
  high : UInt8
  more : Nat

/-- What a first byte says; `none` for a byte that no longer character starts with. -/
def lead? (b : UInt8) : Option Lead :=
  if 0xc2 ≤ b ∧ b ≤ 0xdf then some ⟨b.toNat - 0xc0, 0x80, 0xbf, 0⟩
  else if b = 0xe0 then some ⟨0, 0xa0, 0xbf, 1⟩
  else if b = 0xed then some ⟨0xd, 0x80, 0x9f, 1⟩
  else if 0xe1 ≤ b ∧ b ≤ 0xef then some ⟨b.toNat - 0xe0, 0x80, 0xbf, 1⟩
  else if b = 0xf0 then some ⟨0, 0x90, 0xbf, 2⟩
  else if 0xf1 ≤ b ∧ b ≤ 0xf3 then some ⟨b.toNat - 0xf0, 0x80, 0xbf, 2⟩
  else if b = 0xf4 then some ⟨4, 0x80, 0x8f, 2⟩
  else none

/-- Where a decoder stands inside a character. -/
structure Pending where
  /-- The first byte of the character. -/
  first : UInt8
  /-- The number of its bytes read so far. -/
  width : Nat
  payload : Nat
  /-- The range of the byte that comes next. -/
  low : UInt8
  high : UInt8
  /-- The number of bytes behind the next one. -/
  more : Nat

/-- Decodes bytes from a position on, perhaps inside a character. -/
def decodeFrom (position : Nat) : Option Pending → Bytes → Except Damage (List Char)
  | none, [] => .ok []
  | some p, [] => .error ⟨position - p.width, p.first, p.width, .ending⟩
  | none, b :: rest =>
    if b < 0x80 then (decodeFrom (position + 1) none rest).map (Char.ofNat b.toNat :: ·)
    else
      match lead? b with
      | none => .error ⟨position, b, 1, .start⟩
      | some l => decodeFrom (position + 1) (some ⟨b, 1, l.payload, l.low, l.high, l.more⟩) rest
  | some p, b :: rest =>
    if b < p.low ∨ p.high < b then .error ⟨position - p.width, p.first, p.width, .continuation⟩
    else
      let payload := 64 * p.payload + (b.toNat - 0x80)
      match p.more with
      | 0 => (decodeFrom (position + 1) none rest).map (Char.ofNat payload :: ·)
      | more + 1 =>
        decodeFrom (position + 1) (some ⟨p.first, p.width + 1, payload, 0x80, 0xbf, more⟩) rest

/-- The characters that bytes encode. -/
def decode (bytes : Bytes) : Except Damage (List Char) :=
  decodeFrom 0 none bytes

end GlobalMap.Text.Utf8
