import GlobalMap.Location.Machine

/-! A machine for location programs that computes on words of a fixed width alone.
It takes the effects of operations from a table, carries out those before the first
terminal one and lets that one, or the top word, say where the object is. No number
is ever cut down to size, for none can be too large. -/
namespace GlobalMap.Location.WordMachine

variable {w : Nat}

/-- A row of a table of operations. -/
structure Row (α : Type) where
  name : String
  code : Nat
  effect : α

/-- The effect that a table gives to a code. -/
def effectIn? {α : Type} (rows : List (Row α)) (code : Nat) : Option α :=
  (rows.find? fun row => row.code == code).map Row.effect

/-- The operations without operands. -/
def plainRows : List (Row Step) := [
  ⟨"DW_OP_dup", 0x12, .dup⟩, ⟨"DW_OP_drop", 0x13, .drop⟩, ⟨"DW_OP_over", 0x14, .over⟩,
  ⟨"DW_OP_swap", 0x16, .swap⟩, ⟨"DW_OP_rot", 0x17, .rot⟩, ⟨"DW_OP_nop", 0x96, .nop⟩,
  ⟨"DW_OP_abs", 0x19, .unary .abs⟩, ⟨"DW_OP_neg", 0x1f, .unary .neg⟩,
  ⟨"DW_OP_not", 0x20, .unary .not⟩,
  ⟨"DW_OP_plus", 0x22, .binary .plus⟩, ⟨"DW_OP_minus", 0x1c, .binary .minus⟩,
  ⟨"DW_OP_mul", 0x1e, .binary .mul⟩, ⟨"DW_OP_div", 0x1b, .binary .div⟩,
  ⟨"DW_OP_mod", 0x1d, .binary .mod⟩, ⟨"DW_OP_and", 0x1a, .binary .and⟩,
  ⟨"DW_OP_or", 0x21, .binary .or⟩, ⟨"DW_OP_xor", 0x27, .binary .xor⟩,
  ⟨"DW_OP_shl", 0x24, .binary .shl⟩, ⟨"DW_OP_shr", 0x25, .binary .shr⟩,
  ⟨"DW_OP_shra", 0x26, .binary .shra⟩, ⟨"DW_OP_stack_value", 0x9f, .stackValue⟩] ++
  ((List.range 32).map fun n => ⟨s!"DW_OP_lit{n}", 0x30 + n, .literal n⟩) ++
  ((List.range 32).map fun n => ⟨s!"DW_OP_reg{n}", 0x50 + n, .register n⟩)

/-- The operations with one number as operand. -/
def numberRows : List (Row (Int → Step)) := [
  ⟨"DW_OP_addr", 0x03, .relocated⟩,
  ⟨"DW_OP_const1u", 0x08, .constant⟩, ⟨"DW_OP_const1s", 0x09, .constant⟩,
  ⟨"DW_OP_const2u", 0x0a, .constant⟩, ⟨"DW_OP_const2s", 0x0b, .constant⟩,
  ⟨"DW_OP_const4u", 0x0c, .constant⟩, ⟨"DW_OP_const4s", 0x0d, .constant⟩,
  ⟨"DW_OP_const8u", 0x0e, .constant⟩, ⟨"DW_OP_const8s", 0x0f, .constant⟩,
  ⟨"DW_OP_constu", 0x10, .constant⟩, ⟨"DW_OP_consts", 0x11, .constant⟩,
  ⟨"DW_OP_pick", 0x15, fun n => .pick n.toNat⟩, ⟨"DW_OP_plus_uconst", 0x23, .addConstant⟩,
  ⟨"DW_OP_regx", 0x90, fun n => .register n.toNat⟩]

/-- The operations with a block of bytes as operand. -/
def blockRows : List (Row (Bytes → Step)) := [
  ⟨"DW_OP_implicit_value", 0x9e, fun data => .implicitValue data.littleEndian⟩]

/-- The effect of an operation. What no table lists cannot be known offline. -/
def effect (op : Operation) : Step :=
  match op.operands with
  | [] => (effectIn? plainRows op.code).getD .unsupported
  | [.number n] => ((effectIn? numberRows op.code).map (· n)).getD .unsupported
  | [.bytes data] => ((effectIn? blockRows op.code).map (· data)).getD .unsupported
  | _ => .unsupported

/-- An operation on one word. The most negative word has no other absolute value or
negative than itself. -/
def unaryWord (op : Unary) (a : BitVec w) : BitVec w :=
  match op with
  | .neg => -a
  | .not => ~~~a
  | .abs => a.abs

/-- An operation on two words; `none` for a division by zero. Shifts by the width or
more leave nothing but the sign that `shra` keeps. -/
def binaryWord (op : Binary) (a b : BitVec w) : Option (BitVec w) :=
  match op with
  | .plus => some (a + b)
  | .minus => some (a - b)
  | .mul => some (a * b)
  | .div => if b = 0 then none else some (a.sdiv b)
  | .mod => if b = 0 then none else some (a % b)
  | .and => some (a &&& b)
  | .or => some (a ||| b)
  | .xor => some (a ^^^ b)
  | .shl => some (a <<< b)
  | .shr => some (a >>> b)
  | .shra => some (a.sshiftRight b.toNat)

/-- The words behind a step that is not terminal, the top first. -/
def carryOut (step : Step) (words : List (BitVec w)) : Except Stop (List (BitVec w)) :=
  match step, words with
  | .relocated n, words | .constant n, words => .ok (BitVec.ofInt w n :: words)
  | .literal n, words => .ok (BitVec.ofNat w n :: words)
  | .nop, words => .ok words
  | .dup, a :: words => .ok (a :: a :: words)
  | .drop, _ :: words => .ok words
  | .over, a :: b :: words => .ok (b :: a :: b :: words)
  | .pick index, words =>
    match words[index]? with
    | some a => .ok (a :: words)
    | none => .error .underflow
  | .swap, a :: b :: words => .ok (b :: a :: words)
  | .rot, a :: b :: c :: words => .ok (b :: c :: a :: words)
  | .addConstant n, a :: words => .ok ((a + BitVec.ofInt w n) :: words)
  | .unary op, a :: words => .ok (unaryWord op a :: words)
  | .binary op, b :: a :: words =>
    match binaryWord op a b with
    | some c => .ok (c :: words)
    | none => .error .divisionByZero
  | .unsupported, _ | .register _, _ | .implicitValue _, _ | .stackValue, _ => .error .offline
  | _, _ => .error .underflow

/-- Whether a step ends the description. -/
def isTerminal : Step → Bool
  | .register _ | .implicitValue _ | .stackValue => true
  | _ => false

/-- What a terminal step describes. -/
def conclude (step : Step) (words : List (BitVec w)) : Except Fault Result :=
  match step, words with
  | .register number, _ => .ok ⟨.register, number⟩
  | .implicitValue value, _ => .ok ⟨.implicitValue, value⟩
  | .stackValue, a :: _ => .ok ⟨.stackValue, a.toNat⟩
  | _, _ => .error .emptyStackValue

/-- The words behind operations of which none is terminal. -/
def carryOutAll (operations : List Operation) (words : List (BitVec w)) :
    Except Fault (List (BitVec w)) :=
  operations.foldlM (fun words op => (carryOut (effect op) words).mapError (·.at op.name)) words

/-- The operations before the first terminal one. -/
def body (operations : List Operation) : List Operation :=
  operations.takeWhile fun op => !isTerminal (effect op)

/-- The first terminal operation and what comes behind it. -/
def ending (operations : List Operation) : List Operation :=
  operations.dropWhile fun op => !isTerminal (effect op)

/-- The words that a program starts with. -/
def initialWords (w : Nat) (initial : Option Int) : List (BitVec w) :=
  (initial.map (BitVec.ofInt w)).toList

/-- Whether an address of the object file is pushed among operations. -/
def pushesAddress (operations : List Operation) : Bool :=
  operations.any fun op => op.name == "DW_OP_addr"

/-- Where an object is, by the words behind the operations before a terminal one. -/
def describe (relocated : Bool) (ending : List Operation) (words : List (BitVec w)) :
    Except Fault Result :=
  match ending, words with
  | [], [] => .error .emptyStack
  | [], a :: _ => .ok ⟨if relocated then .relocatedAddress else .address, a.toNat⟩
  | last :: rest, words => do
    let result ← conclude (effect last) words
    if rest.isEmpty then .ok result else .error (.composite last.name)

/-- Where an object is, by its location program. -/
def evaluate (w : Nat) (operations : List Operation) (initial : Option Int) :
    Except Fault Result := do
  let words ← carryOutAll (body operations) (initialWords w initial)
  describe (pushesAddress (body operations)) (ending operations) words

end GlobalMap.Location.WordMachine
