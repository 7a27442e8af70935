import GlobalMap.Dwarf.Cursor
import GlobalMap.Dwarf.Fault
/-!
The headers of units.

Units stand one behind the other: each header says how long its unit is, and so where the next one
begins.
-/
namespace GlobalMap.Dwarf

/-- The number of bytes of the length at the start of a unit. -/
def Format.lengthSize : Format → Nat
  | .dwarf32 => 4
  | .dwarf64 => 12

/-- The header of a unit. -/
structure UnitHeader where
  offset : Nat
  /-- The number of bytes behind the length. -/
  length : Nat
  format : Format
  version : Nat
  addressSize : AddressSize
  abbreviationOffset : Nat
  /-- The first entry of the unit. -/
  top : Cursor

namespace UnitHeader

/-- The number of bytes of a unit, its header included. -/
def size (h : UnitHeader) : Nat :=
  h.format.lengthSize + h.length

/-- Where a unit ends. -/
def stop (h : UnitHeader) : Nat :=
  h.offset + h.size

def encoding (h : UnitHeader) : Encoding where
  addressSize := h.addressSize
  order := .little
  format := h.format

/-- The length of a unit and the format that it implies. The highest words are no lengths: one of
them announces a length of eight bytes, the others mean nothing. -/
def readLength (c : Cursor) : Except Fault ((Format × Nat) × Cursor) := do
  let (first, c) ← orTruncated (c.word 4)
  if first < 0xffffff00 then return ((.dwarf32, first), c)
  if first ≠ 0xffffffff then throw .truncated
  let (length, c) ← orTruncated (c.word 8)
  return ((.dwarf64, length), c)

/-- What a version 5 header holds behind the offset of the abbreviations: an identifier for skeleton
and split units, an identifier and an offset for type units. -/
def extraSize? (format : Format) (unitType : Nat) : Option Nat :=
  match unitType with
  | 1 | 3 => some 0
  | 4 | 5 => some 8
  | 2 | 6 => some (8 + format.offsetSize)
  | _ => none

/-- The address size and the offset of the abbreviations, whose order depends on the version. -/
def readLayout (format : Format) (version : Nat) (c : Cursor) :
    Except Fault ((Nat × Nat) × Cursor) := do
  if version < 5 then
    let (abbreviations, c) ← orTruncated (c.word format.offsetSize)
    let (addressSize, c) ← orTruncated (c.word 1)
    return ((addressSize, abbreviations), c)
  else
    let (unitType, c) ← orTruncated (c.word 1)
    let extra ← orTruncated (extraSize? format unitType)
    let (addressSize, c) ← orTruncated (c.word 1)
    let (abbreviations, c) ← orTruncated (c.word format.offsetSize)
    let (_, c) ← orTruncated (c.block extra)
    return ((addressSize, abbreviations), c)

/-- The header at an offset. -/
def read (entries : Bytes) (offset : Nat) : Except Fault UnitHeader := do
  let ((format, length), c) ← readLength (.ofOffset entries offset)
  let (version, c) ← orTruncated (c.word 2)
  let ((addressBytes, abbreviationOffset), top) ← readLayout format version c
  match AddressSize.ofBytes? addressBytes with
  | none => throw (.addressSize addressBytes)
  | some addressSize =>
    if version < 2 ∨ 5 < version then
      throw (.rejected s!"Expected supported DWARF version. Got '{version}'")
    return { offset, length, format, version, addressSize, abbreviationOffset, top }

/-- The headers from an offset on, up to the end of the section or the first that cannot be read. -/
def readFrom (entries : Bytes) (size offset : Nat) : List UnitHeader × Option Fault :=
  if _inside : offset < size then
    match read entries offset with
    | .error fault => ([], some fault)
    | .ok header =>
      let next := offset + header.size
      let (headers, fault) := readFrom entries size next
      (header :: headers, fault)
  else ([], none)
termination_by size - offset
decreasing_by
  have : 0 < header.size := by
    unfold UnitHeader.size
    cases header.format <;> simp only [Format.lengthSize] <;> omega
  omega

/-- The headers of a section. -/
def readAll (entries : Bytes) : List UnitHeader × Option Fault :=
  readFrom entries entries.length 0

end UnitHeader

end GlobalMap.Dwarf
