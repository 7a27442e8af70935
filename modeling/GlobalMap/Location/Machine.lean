import GlobalMap.Location.Instruction
/-!
Reducing a location program on a stack of words.

Values are computed as whole numbers and cut down to the words of the target after every operation,
so that each word on the stack is below `2 ^ bits`. An operation that ends the description (a
register, an implicit value, a stack value) must be the last one.
-/
namespace GlobalMap.Location

open Dwarf

/-- What a reduced program describes. -/
inductive Kind where
  | address
  /-- An address as it stands in the object file, before relocation. -/
  | relocatedAddress
  | register
  | implicitValue
  | stackValue
  deriving DecidableEq, Repr

/-- The name of a kind, as it is reported. -/
def Kind.name : Kind → String
  | address => "address"
  | relocatedAddress => "relocated_address"
  | register => "register"
  | implicitValue => "implicit_value"
  | stackValue => "stack_value"

/-- Where an object is: an address, a register number or the value itself. -/
structure Result where
  kind : Kind
  value : Nat
  deriving DecidableEq, Repr

/-- Why a program cannot be reduced. -/
inductive Fault where
  /-- The bytes are no location program. -/
  | undecodable (program : List Int)
  /-- Operations follow one that ends the description. -/
  | composite (name : String)
  /-- An operation needs more words than are on the stack. -/
  | underflow (name : String)
  | divisionByZero (name : String)
  /-- An operation needs the running program. -/
  | offline (name : String)
  /-- Nothing is on the stack at the end. -/
  | emptyStack
  /-- Nothing is on the stack where its top would be the value. -/
  | emptyStackValue
  deriving DecidableEq, Repr

/-- Numbers between brackets, as messages show them. -/
def bracketed (numbers : List Int) : String :=
  "[" ++ ", ".intercalate (numbers.map fun n => toString n) ++ "]"

namespace Fault

def message : Fault → String
  | undecodable program =>
    s!"Cannot decode expression {bracketed program}: not a sequence of known operations"
  | composite name => s!"{name} followed by further operations (composite location)"
  | underflow name => s!"Stack underflow at {name}"
  | divisionByZero name => s!"Division by zero at {name}"
  | offline name => s!"Operation {name} cannot be evaluated offline"
  | emptyStack => "Expression leaves an empty stack"
  | emptyStackValue => "DW_OP_stack_value on an empty stack"

end Fault

/-- A whole number cut down to a word. -/
def wrap (bits : Nat) (n : Int) : Nat :=
  (n % Nat.pow 2 bits).toNat

/-- A word seen as two's complement. -/
def signed (bits : Nat) (word : Nat) : Int :=
  if word.testBit (bits - 1) then word - Nat.pow 2 bits else word

/-- The whole number that an operation makes of a word. -/
def unaryValue (bits : Nat) (op : Unary) (a : Nat) : Int :=
  match op with
  | .neg => -signed bits a
  | .not => -(a : Int) - 1
  | .abs => (signed bits a).natAbs

/-- The whole number that an operation makes of two words; `none` for a division by zero. Division
is signed and goes toward zero, the remainder is unsigned, and `shra` keeps the sign. -/
def binaryValue (bits : Nat) (op : Binary) (a b : Nat) : Option Int :=
  match op with
  | .plus => some (a + b)
  | .minus => some (a - b)
  | .mul => some (a * b)
  | .div => if b = 0 then none else some ((signed bits a).tdiv (signed bits b))
  | .mod => if b = 0 then none else some (a % b : Nat)
  | .and => some (a &&& b : Nat)
  | .or => some (a ||| b : Nat)
  | .xor => some (a ^^^ b : Nat)
  | .shl => some (if b < bits then (a <<< b : Nat) else 0)
  | .shr => some (if b < bits then (a >>> b : Nat) else 0)
  | .shra => some (signed bits a >>> min b bits)

/-- Why a step cannot be taken, before it is known which operation it belongs to. -/
inductive Stop where
  | underflow
  | divisionByZero
  | offline
  deriving DecidableEq, Repr

def Stop.at (stop : Stop) (name : String) : Fault :=
  match stop with
  | .underflow => .underflow name
  | .divisionByZero => .divisionByZero name
  | .offline => .offline name

/-- The stack behind a step that does not end the description, the top of the stack first. -/
def advance (bits : Nat) (step : Step) (stack : List Nat) : Except Stop (List Nat) :=
  match step, stack with
  | .relocated n, stack => .ok (wrap bits n :: stack)
  | .constant n, stack => .ok (wrap bits n :: stack)
  | .literal n, stack => .ok (n :: stack)
  | .nop, stack => .ok stack
  | .dup, a :: stack => .ok (a :: a :: stack)
  | .drop, _ :: stack => .ok stack
  | .over, a :: b :: stack => .ok (b :: a :: b :: stack)
  | .pick index, stack =>
    match stack[index]? with
    | some a => .ok (a :: stack)
    | none => .error .underflow
  | .swap, a :: b :: stack => .ok (b :: a :: stack)
  | .rot, a :: b :: c :: stack => .ok (b :: c :: a :: stack)
  | .addConstant n, a :: stack => .ok (wrap bits (a + n) :: stack)
  | .unary op, a :: stack => .ok (wrap bits (unaryValue bits op a) :: stack)
  | .binary op, b :: a :: stack =>
    match binaryValue bits op a b with
    | some value => .ok (wrap bits value :: stack)
    | none => .error .divisionByZero
  | .unsupported, _ => .error .offline
  | .register _, _ | .implicitValue _, _ | .stackValue, _ => .error .offline
  | _, _ => .error .underflow

/-- What a step that ends the description describes, if it is one. -/
def terminal? (step : Step) (stack : List Nat) : Option (Except Fault Result) :=
  match step with
  | .register number => some (.ok ⟨.register, number⟩)
  | .implicitValue value => some (.ok ⟨.implicitValue, value⟩)
  | .stackValue =>
    match stack with
    | a :: _ => some (.ok ⟨.stackValue, a⟩)
    | [] => some (.error .emptyStackValue)
  | _ => none

/-- Whether a step pushes an address of the object file. -/
def Step.isRelocated : Step → Bool
  | .relocated _ => true
  | _ => false

/-- Carries out instructions on a stack, where `relocated` tells whether an address of the object
file has been pushed so far. -/
def run (bits : Nat) (relocated : Bool) (stack : List Nat) :
    List Instruction → Except Fault Result
  | [] =>
    match stack with
    | [] => .error .emptyStack
    | a :: _ => .ok ⟨if relocated then .relocatedAddress else .address, a⟩
  | i :: rest =>
    match terminal? i.step stack with
    | some (.error fault) => .error fault
    | some (.ok result) => if rest.isEmpty then .ok result else .error (.composite i.name)
    | none =>
      match advance bits i.step stack with
      | .ok stack => run bits (relocated || i.step.isRelocated) stack rest
      | .error stop => .error (stop.at i.name)

/-- The stack that a program starts with. -/
def initialStack (bits : Nat) (initial : Option Int) : List Nat :=
  (initial.map (wrap bits)).toList

/-- Reduces operations, with a word pushed first if one is given. -/
def evaluate (encoding : Encoding) (operations : List Operation) (initial : Option Int) :
    Except Fault Result :=
  run encoding.bits false (initialStack encoding.bits initial)
    (operations.map Operation.instruction)

/-- Reduces the program that a list of byte values is. -/
def locate (encoding : Encoding) (program : List Int) (initial : Option Int) :
    Except Fault Result :=
  match bytesOf? program >>= decode encoding with
  | none => .error (.undecodable program)
  | some operations => evaluate encoding operations initial

end GlobalMap.Location
