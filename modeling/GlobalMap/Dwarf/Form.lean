import GlobalMap.Dwarf.Scan
/-!
The forms of attribute values: how each is laid out, and what a value of it is.
-/
namespace GlobalMap.Dwarf

/-- How a value is laid out. -/
inductive Layout where
  /-- An address of the target. -/
  | address
  /-- An offset into a section. -/
  | offset
  /-- A word of a number of bytes. -/
  | word (width : Nat)
  | uleb
  | sleb
  /-- Bytes behind their number in a word. -/
  | block (width : Nat)
  /-- Bytes behind their number in LEB128. -/
  | ulebBlock
  /-- A fixed number of bytes. -/
  | bytes (count : Nat)
  /-- A zero-terminated string. -/
  | text
  /-- Nothing; that the attribute is there says all. -/
  | present
  /-- An offset into the section of entries: as an address in version 2, as an offset later. -/
  | reference
  /-- Nothing; the value stands with the declaration of the attribute. -/
  | constant
  /-- Another form, and a value of it. -/
  | indirect
  /-- The form is named but its layout is not known. -/
  | unknown
  deriving DecidableEq, Repr

/-- What a value is. -/
inductive Meaning where
  /-- The offset of an entry inside its unit. -/
  | unitReference
  /-- The offset of an entry inside its unit, in a form that only links siblings. -/
  | siblingReference
  /-- The offset of an entry in the section of entries. -/
  | sectionReference
  /-- A location program. -/
  | expression
  | constant
  | text
  /-- A place in the pool of strings. -/
  | pooled
  /-- A place in the pool of strings of line tables. -/
  | linePooled
  /-- A row of the unit's table of strings. -/
  | stringIndex
  /-- A row of the unit's table of addresses. -/
  | addressIndex
  /-- A row of the unit's table of location lists. -/
  | locationListIndex
  /-- A row of the unit's table of range lists. -/
  | rangeListIndex
  /-- Something that no attribute of a map needs. -/
  | other
  deriving DecidableEq, Repr

/-- A form. -/
structure Form where
  name : String
  layout : Layout
  meaning : Meaning
  deriving DecidableEq, Repr

namespace Form

/-- A row of the table of forms. -/
def row (name : String) (layout : Layout) (meaning : Meaning) : Form :=
  ⟨"DW_FORM_" ++ name, layout, meaning⟩

/-- The form of a code. -/
def ofCode? (code : Nat) : Option Form :=
  match code with
  | 0x00 => row "null" .unknown .other
  | 0x01 => row "addr" .address .other
  | 0x02 => row "ref" (.word 4) .siblingReference
  | 0x03 => row "block2" (.block 2) .expression
  | 0x04 => row "block4" (.block 4) .expression
  | 0x05 => row "data2" (.word 2) .constant
  | 0x06 => row "data4" (.word 4) .constant
  | 0x07 => row "data8" (.word 8) .constant
  | 0x08 => row "string" .text .text
  | 0x09 => row "block" .ulebBlock .expression
  | 0x0a => row "block1" (.block 1) .expression
  | 0x0b => row "data1" (.word 1) .constant
  | 0x0c => row "flag" (.word 1) .other
  | 0x0d => row "sdata" .sleb .constant
  | 0x0e => row "strp" .offset .pooled
  | 0x0f => row "udata" .uleb .constant
  | 0x10 => row "ref_addr" .reference .sectionReference
  | 0x11 => row "ref1" (.word 1) .unitReference
  | 0x12 => row "ref2" (.word 2) .unitReference
  | 0x13 => row "ref4" (.word 4) .unitReference
  | 0x14 => row "ref8" (.word 8) .unitReference
  | 0x15 => row "ref_udata" .uleb .unitReference
  | 0x16 => row "indirect" .indirect .other
  | 0x17 => row "sec_offset" .offset .constant
  | 0x18 => row "exprloc" .ulebBlock .expression
  | 0x19 => row "flag_present" .present .other
  | 0x1a => row "strx" .uleb .stringIndex
  | 0x1b => row "addrx" .uleb .addressIndex
  | 0x1c => row "ref_sup4" (.word 4) .other
  | 0x1d => row "strp_sup" .offset .other
  | 0x1e => row "data16" (.bytes 16) .other
  | 0x1f => row "line_strp" .offset .linePooled
  | 0x20 => row "ref_sig8" (.word 8) .other
  | 0x21 => row "implicit_const" .constant .constant
  | 0x22 => row "loclistx" .uleb .locationListIndex
  | 0x23 => row "rnglistx" .uleb .rangeListIndex
  | 0x24 => row "ref_sup8" (.word 8) .other
  | 0x25 => row "strx1" (.word 1) .stringIndex
  | 0x26 => row "strx2" (.word 2) .stringIndex
  | 0x27 => row "strx3" (.word 3) .stringIndex
  | 0x28 => row "strx4" (.word 4) .stringIndex
  | 0x29 => row "addrx1" (.word 1) .addressIndex
  | 0x2a => row "addrx2" (.word 2) .addressIndex
  | 0x2b => row "addrx3" (.word 3) .addressIndex
  | 0x2c => row "addrx4" (.word 4) .addressIndex
  | 0x1f01 => row "GNU_addr_index" .unknown .other
  | 0x1f02 => row "GNU_str_index" .unknown .other
  | 0x1f20 => row "GNU_ref_alt" .offset .other
  | 0x1f21 => row "GNU_strp_alt" .offset .other
  | _ => none

end Form

end GlobalMap.Dwarf
