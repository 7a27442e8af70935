/-!
Byte strings, fixed-width words inside them, and ranges cut out of them.

A word is read only when all of its bytes lie inside the buffer (`Bytes.readWord`), and a range is
cut only when both of its ends do (`Bytes.cut`). Offsets are integers, so an offset before the
buffer is refused by the same rule as one behind it.
-/
namespace GlobalMap

/-- A byte string. -/
abbrev Bytes := List UInt8

namespace Bytes

/-- The number whose base-256 digits are the bytes, lowest digit first. -/
def littleEndian : Bytes → Nat
  | [] => 0
  | b :: rest => b.toNat + 256 * littleEndian rest

/-- The number whose base-256 digits are the bytes, highest digit first. -/
def bigEndian (bytes : Bytes) : Nat :=
  littleEndian bytes.reverse

/-- The `width` lowest base-256 digits of a number, lowest digit first. -/
def ofNatLittle : (width : Nat) → Nat → Bytes
  | 0, _ => []
  | width + 1, n => UInt8.ofNat n :: ofNatLittle width (n / 256)

/-- The value of an unsigned word of `width` bytes, seen as two's complement. -/
def signed (width : Nat) (word : Nat) : Int :=
  if word < Nat.pow 2 (8 * width - 1) then word else word - Nat.pow 2 (8 * width)

/-- A word that does not lie inside its buffer. -/
structure Overrun where
  width : Nat
  offset : Int
  size : Nat
  deriving DecidableEq, Repr

namespace Overrun

def message (o : Overrun) : String :=
  s!"Read of {o.width} bytes at offset {o.offset} exceeds buffer of {o.size} bytes"

end Overrun

/-- The little-endian word of `width` bytes at `offset`. -/
def readWord (width : Nat) (data : Bytes) (offset : Int) : Except Overrun Nat :=
  if offset < 0 ∨ data.length < offset + width then
    .error ⟨width, offset, data.length⟩
  else
    .ok (littleEndian ((data.drop offset.toNat).take width))

/-- A range that does not lie inside its buffer, with the name of what was looked for there. -/
structure Outside where
  what : String
  start : Int
  stop : Int
  size : Nat
  deriving DecidableEq, Repr

namespace Outside

def message (o : Outside) : String :=
  s!"{o.what} [{o.start}, {o.stop}) lies outside the {o.size} byte file"

end Outside

/-- The `length` bytes from `start` on. -/
def cut (data : Bytes) (start length : Int) (what : String) : Except Outside Bytes :=
  if start < 0 ∨ length < 0 ∨ data.length < start + length then
    .error ⟨what, start, start + length, data.length⟩
  else
    .ok ((data.drop start.toNat).take length.toNat)

/-- The text that the bytes encode in UTF-8, if they encode one. -/
def utf8? (bytes : Bytes) : Option String :=
  String.fromUTF8? ⟨bytes.toArray⟩

end Bytes

end GlobalMap
