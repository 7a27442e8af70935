import GlobalMap.Location.Program
/-!
What the operations of a location program do to a stack of words.

An operation that needs memory, registers or a frame to be carried out has no effect that can be
known offline; it is `Step.unsupported`.
-/
namespace GlobalMap.Location

/-- An operation on the word on top of the stack. -/
inductive Unary where
  | neg
  | not
  | abs
  deriving DecidableEq, Repr

/-- An operation on the two words on top of the stack. -/
inductive Binary where
  | plus
  | minus
  | mul
  | div
  | mod
  | and
  | or
  | xor
  | shl
  | shr
  | shra
  deriving DecidableEq, Repr

/-- The effect of an operation. -/
inductive Step where
  /-- Push an address as it stands in the object file. -/
  | relocated (address : Int)
  /-- Push a constant. -/
  | constant (value : Int)
  /-- Push a small literal. -/
  | literal (n : Nat)
  | nop
  | dup
  | drop
  | over
  /-- Push a copy of the word so many places below the top. -/
  | pick (index : Nat)
  | swap
  /-- Move the top word below the two under it. -/
  | rot
  /-- Add a constant to the top word. -/
  | addConstant (n : Int)
  | unary (op : Unary)
  | binary (op : Binary)
  /-- The object is in a register. -/
  | register (number : Nat)
  /-- The object has no address, but this value. -/
  | implicitValue (value : Nat)
  /-- The object has no address; its value is on top of the stack. -/
  | stackValue
  | unsupported
  deriving DecidableEq, Repr

/-- An operation by its name and effect. -/
structure Instruction where
  name : String
  step : Step
  deriving DecidableEq, Repr

/-- The effect of the operations without operands. -/
def plainStep (code : Nat) : Step :=
  match code with
  | 0x12 => .dup
  | 0x13 => .drop
  | 0x14 => .over
  | 0x16 => .swap
  | 0x17 => .rot
  | 0x19 => .unary .abs
  | 0x1a => .binary .and
  | 0x1b => .binary .div
  | 0x1c => .binary .minus
  | 0x1d => .binary .mod
  | 0x1e => .binary .mul
  | 0x1f => .unary .neg
  | 0x20 => .unary .not
  | 0x21 => .binary .or
  | 0x22 => .binary .plus
  | 0x24 => .binary .shl
  | 0x25 => .binary .shr
  | 0x26 => .binary .shra
  | 0x27 => .binary .xor
  | 0x96 => .nop
  | 0x9f => .stackValue
  | _ =>
    if 0x30 ≤ code ∧ code < 0x50 then .literal (code - 0x30)
    else if 0x50 ≤ code ∧ code < 0x70 then .register (code - 0x50)
    else .unsupported

/-- The effect of the operations with one number as operand. -/
def numberStep (code : Nat) (n : Int) : Step :=
  match code with
  | 0x03 => .relocated n
  | 0x15 => .pick n.toNat
  | 0x23 => .addConstant n
  | 0x90 => .register n.toNat
  | _ => if 0x08 ≤ code ∧ code ≤ 0x11 then .constant n else .unsupported

namespace Operation

/-- The effect of an operation. -/
def step (op : Operation) : Step :=
  match op.operands with
  | [] => plainStep op.code
  | [.number n] => numberStep op.code n
  | [.bytes data] => if op.code = 0x9e then .implicitValue data.littleEndian else .unsupported
  | _ => .unsupported

def instruction (op : Operation) : Instruction :=
  ⟨op.name, op.step⟩

end Operation

end GlobalMap.Location
