import GlobalMap.Dwarf.Scan
/-!
The operations of DWARF location programs: their codes, names and operands.
-/
namespace GlobalMap.Location

open Dwarf

/-- How one operand is encoded. -/
inductive Form where
  /-- An unsigned word of a number of bytes. -/
  | unsigned (width : Nat)
  /-- A word of a number of bytes in two's complement. -/
  | signed (width : Nat)
  | uleb
  | sleb
  /-- An address of the target. -/
  | address
  /-- An offset into debug information. -/
  | offset
  /-- Bytes behind their number in LEB128; a block that is cut short ends with the program. -/
  | block
  /-- Bytes behind their number in one byte; a block that is cut short ends with the program. -/
  | shortBlock
  deriving DecidableEq, Repr

/-- What follows the code of an operation. -/
inductive Shape where
  /-- Operands, one after the other. -/
  | operands (forms : List Form)
  /-- A location program, as a block. -/
  | program
  /-- A kind in one byte, and an index whose form depends on the kind. -/
  | tagged
  deriving DecidableEq, Repr

/-- A row of the table of operations. -/
structure Opcode where
  name : String
  shape : Shape

namespace Opcode

/-- An operation without operands. -/
def plain (name : String) : Opcode := ⟨"DW_OP_" ++ name, .operands []⟩

/-- An operation with operands. -/
def taking (name : String) (forms : List Form) : Opcode := ⟨"DW_OP_" ++ name, .operands forms⟩

/-- The codes that stand for 32 operations each, one for every literal or register. -/
def numbered? (code : Nat) : Option Opcode :=
  if 0x30 ≤ code ∧ code < 0x50 then some (plain s!"lit{code - 0x30}")
  else if 0x50 ≤ code ∧ code < 0x70 then some (plain s!"reg{code - 0x50}")
  else if 0x70 ≤ code ∧ code < 0x90 then some (taking s!"breg{code - 0x70}" [.sleb])
  else none

/-- The operation of a code, if there is one that can be decoded. -/
def ofCode? (code : Nat) : Option Opcode :=
  match code with
  | 0x03 => taking "addr" [.address]
  | 0x06 => plain "deref"
  | 0x08 => taking "const1u" [.unsigned 1]
  | 0x09 => taking "const1s" [.signed 1]
  | 0x0a => taking "const2u" [.unsigned 2]
  | 0x0b => taking "const2s" [.signed 2]
  | 0x0c => taking "const4u" [.unsigned 4]
  | 0x0d => taking "const4s" [.signed 4]
  | 0x0e => taking "const8u" [.unsigned 8]
  | 0x0f => taking "const8s" [.signed 8]
  | 0x10 => taking "constu" [.uleb]
  | 0x11 => taking "consts" [.sleb]
  | 0x12 => plain "dup"
  | 0x13 => plain "drop"
  | 0x14 => plain "over"
  | 0x15 => taking "pick" [.unsigned 1]
  | 0x16 => plain "swap"
  | 0x17 => plain "rot"
  | 0x18 => plain "xderef"
  | 0x19 => plain "abs"
  | 0x1a => plain "and"
  | 0x1b => plain "div"
  | 0x1c => plain "minus"
  | 0x1d => plain "mod"
  | 0x1e => plain "mul"
  | 0x1f => plain "neg"
  | 0x20 => plain "not"
  | 0x21 => plain "or"
  | 0x22 => plain "plus"
  | 0x23 => taking "plus_uconst" [.uleb]
  | 0x24 => plain "shl"
  | 0x25 => plain "shr"
  | 0x26 => plain "shra"
  | 0x27 => plain "xor"
  | 0x28 => taking "bra" [.signed 2]
  | 0x29 => plain "eq"
  | 0x2a => plain "ge"
  | 0x2b => plain "gt"
  | 0x2c => plain "le"
  | 0x2d => plain "lt"
  | 0x2e => plain "ne"
  | 0x2f => taking "skip" [.signed 2]
  | 0x90 => taking "regx" [.uleb]
  | 0x91 => taking "fbreg" [.sleb]
  | 0x92 => taking "bregx" [.uleb, .sleb]
  | 0x93 => taking "piece" [.uleb]
  | 0x94 => taking "deref_size" [.signed 1]
  | 0x95 => taking "xderef_size" [.signed 1]
  | 0x96 => plain "nop"
  | 0x97 => plain "push_object_address"
  | 0x98 => taking "call2" [.unsigned 2]
  | 0x99 => taking "call4" [.unsigned 4]
  | 0x9a => taking "call_ref" [.offset]
  | 0x9b => plain "form_tls_address"
  | 0x9c => plain "call_frame_cfa"
  | 0x9d => taking "bit_piece" [.uleb, .uleb]
  | 0x9e => taking "implicit_value" [.block]
  | 0x9f => plain "stack_value"
  | 0xa0 => taking "implicit_pointer" [.offset, .sleb]
  | 0xa1 => taking "addrx" [.uleb]
  | 0xa3 => some ⟨"DW_OP_entry_value", .program⟩
  | 0xa4 => taking "const_type" [.uleb, .shortBlock]
  | 0xa5 => taking "regval_type" [.uleb, .uleb]
  | 0xa6 => taking "deref_type" [.unsigned 1, .uleb]
  | 0xa8 => taking "convert" [.uleb]
  | 0xe0 => plain "GNU_push_tls_address"
  | 0xed => some ⟨"DW_OP_WASM_location", .tagged⟩
  | 0xf0 => plain "GNU_uninit"
  | 0xf2 => taking "GNU_implicit_pointer" [.offset, .sleb]
  | 0xf3 => some ⟨"DW_OP_GNU_entry_value", .program⟩
  | 0xf4 => taking "GNU_const_type" [.uleb, .shortBlock]
  | 0xf5 => taking "GNU_regval_type" [.uleb, .uleb]
  | 0xf6 => taking "GNU_deref_type" [.unsigned 1, .uleb]
  | 0xf7 => taking "GNU_convert" [.uleb]
  | 0xfa => taking "GNU_parameter_ref" [.offset]
  | 0xfb => taking "GNU_addr_index" [.uleb]
  | 0xfc => taking "GNU_const_index" [.uleb]
  | 0xfd => taking "GNU_variable_value" [.uleb]
  | _ => numbered? code

/-- The name of the operation of a code. -/
def nameOf (code : Nat) : String :=
  match ofCode? code with
  | some opcode => opcode.name
  | none => ""

end Opcode

end GlobalMap.Location
