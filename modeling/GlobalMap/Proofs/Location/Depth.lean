import GlobalMap.Proofs.Location.Reduction

/-! How deep the stack has to be. What an operation takes from the stack and leaves there follows
from what it is and from the index of a pick, never from the words, so the depth before every
operation of a program is known without running it. Apart from the divisors, that depth and the
order of the operations settle whether the program can be reduced, and a fault names an operation
that stands in the way. -/
namespace GlobalMap.Location

open WordMachine

variable {bits depth : Nat} {stack : List Nat} {operations : List Operation}

/-! ## Needs -/

namespace Step

/-- The number of words that a step takes from the stack, or has to find there. -/
def takes : Step → Nat
  | relocated _ | constant _ | literal _ | nop => 0
  | dup | drop | addConstant _ | unary _ => 1
  | «over» | swap | binary _ => 2
  | rot => 3
  | pick index => index + 1
  | stackValue => 1
  | register _ | implicitValue _ | unsupported => 0

/-- The number of words that a step leaves in place of those it takes. -/
def leaves : Step → Nat
  | nop | drop => 0
  | relocated _ | constant _ | literal _ | addConstant _ | unary _ | binary _ => 1
  | dup | swap => 2
  | «over» | rot => 3
  | pick index => index + 2
  | register _ | implicitValue _ | stackValue | unsupported => 0

/-- Whether the word on top is a divisor. -/
def divides : Step → Bool
  | binary .div | binary .mod => true
  | _ => false

end Step

/-- The depth behind operations, by what they take and leave. -/
def depthBehind (depth : Nat) (operations : List Operation) : Nat :=
  operations.foldl (fun depth op => depth - (effect op).takes + (effect op).leaves) depth

/-- The stack behind operations, if all of them can be carried out. -/
def stackBehind (bits : Nat) (stack : List Nat) (operations : List Operation) :
    Except Stop (List Nat) :=
  operations.foldlM (fun stack op => advance bits op.step stack) stack

/-- Nothing stands in the way of a program on a stack of some depth. -/
structure Reducible (bits depth : Nat) (stack : List Nat) (operations : List Operation) :
    Prop where
  known : ∀ op ∈ operations, effect op ≠ .unsupported
  /-- Nothing comes behind an operation that ends the description. -/
  last : ∀ before op after, operations = before ++ op :: after →
    isTerminal (effect op) = true → after = []
  deep : ∀ before op after, operations = before ++ op :: after →
    (effect op).takes ≤ depthBehind depth before
  divisors : ∀ before op after, operations = before ++ op :: after →
    (effect op).divides = true → ∀ below, stackBehind bits stack before ≠ .ok (0 :: below)
  /-- There is a word to end with where no operation ends the description. -/
  ended : (∀ op ∈ operations, isTerminal (effect op) = false) → 0 < depthBehind depth operations

/-- What a fault says stands in the way of a program on a stack of some depth. -/
inductive Blames (bits depth : Nat) (stack : List Nat) (operations : List Operation) :
    Fault → Prop where
  | offline (op : Operation) (mem : op ∈ operations) (unknown : effect op = .unsupported) :
      Blames bits depth stack operations (.offline op.name)
  | composite (before : List Operation) (op : Operation) (after : List Operation)
      (split : operations = before ++ op :: after) (ends : isTerminal (effect op) = true)
      (more : after ≠ []) : Blames bits depth stack operations (.composite op.name)
  | underflow (before : List Operation) (op : Operation) (after : List Operation)
      (split : operations = before ++ op :: after)
      (shallow : depthBehind depth before < (effect op).takes) :
      Blames bits depth stack operations (.underflow op.name)
  | divisionByZero (before : List Operation) (op : Operation) (after : List Operation)
      (split : operations = before ++ op :: after) (divides : (effect op).divides = true)
      (below : List Nat) (zero : stackBehind bits stack before = .ok (0 :: below)) :
      Blames bits depth stack operations (.divisionByZero op.name)
  | emptyStackValue (before : List Operation) (op : Operation) (after : List Operation)
      (split : operations = before ++ op :: after) (value : effect op = .stackValue)
      (empty : depthBehind depth before = 0) : Blames bits depth stack operations .emptyStackValue
  | emptyStack (goOn : ∀ op ∈ operations, isTerminal (effect op) = false)
      (empty : depthBehind depth operations = 0) : Blames bits depth stack operations .emptyStack

/-- What is blamed on a program does stand in its way. -/
theorem not_reducible_of_blames {fault : Fault}
    (blames : Blames bits depth stack operations fault) :
    ¬ Reducible bits depth stack operations := by
  intro reducible
  cases blames with
  | offline op mem unknown => exact reducible.known op mem unknown
  | composite before op after split ends more =>
    exact more (reducible.last before op after split ends)
  | underflow before op after split shallow =>
    have deep := reducible.deep before op after split
    omega
  | divisionByZero before op after split divides below zero =>
    exact reducible.divisors before op after split divides below zero
  | emptyStackValue before op after split value empty =>
    have deep := reducible.deep before op after split
    rw [value, empty] at deep
    cases deep
  | emptyStack goOn empty =>
    have ended := reducible.ended goOn
    omega

/-! ## Steps -/

theorem binaryValue_eq_none_iff (bits : Nat) (op : Binary) (a b : Nat) :
    binaryValue bits op a b = none ↔ (Step.binary op).divides = true ∧ b = 0 := by
  cases op with
  | div | mod =>
    simp only [binaryValue, Step.divides, true_and]
    split <;> simp [*]
  | plus | minus | mul | and | or | xor | shl | shr | shra => simp [binaryValue, Step.divides]

/-- What a step that goes on can do: it finds too few words, or a zero to divide by, or it takes
and leaves as many words as it has to. -/
theorem advance_cases {step : Step} (known : step ≠ .unsupported)
    (goesOn : isTerminal step = false) (bits : Nat) (stack : List Nat) :
    stack.length < step.takes ∧ advance bits step stack = .error .underflow ∨
    step.takes ≤ stack.length ∧
      ((∃ below, step.divides = true ∧ stack = 0 :: below ∧
          advance bits step stack = .error .divisionByZero) ∨
        ∃ after, (step.divides = true → ∀ below, stack ≠ 0 :: below) ∧
          advance bits step stack = .ok after ∧
          after.length = stack.length - step.takes + step.leaves) := by
  cases step with
  | unsupported => exact absurd rfl known
  | register | implicitValue | stackValue => cases goesOn
  | relocated n | constant n | literal n =>
    exact .inr ⟨Nat.zero_le _, .inr ⟨_, Bool.false_ne_true.elim, rfl, rfl⟩⟩
  | nop => exact .inr ⟨Nat.zero_le _, .inr ⟨stack, Bool.false_ne_true.elim, rfl, rfl⟩⟩
  | dup | drop | addConstant n | unary op =>
    cases stack with
    | nil => exact .inl ⟨Nat.one_pos, rfl⟩
    | cons a stack =>
      exact .inr ⟨Nat.le_add_left _ _, .inr ⟨_, Bool.false_ne_true.elim, rfl, rfl⟩⟩
  | «over» | swap =>
    rcases stack with _ | ⟨a, _ | ⟨b, stack⟩⟩
    · exact .inl ⟨Nat.two_pos, rfl⟩
    · exact .inl ⟨Nat.one_lt_two, rfl⟩
    · exact .inr ⟨Nat.le_add_left _ _, .inr ⟨_, Bool.false_ne_true.elim, rfl, rfl⟩⟩
  | rot =>
    rcases stack with _ | ⟨a, _ | ⟨b, _ | ⟨c, stack⟩⟩⟩
    · exact .inl ⟨by decide, rfl⟩
    · exact .inl ⟨Nat.succ_lt_succ Nat.two_pos, rfl⟩
    · exact .inl ⟨Nat.lt_succ_self 2, rfl⟩
    · exact .inr ⟨Nat.le_add_left _ _, .inr ⟨_, Bool.false_ne_true.elim, rfl, rfl⟩⟩
  | pick index =>
    simp only [Step.takes, Step.leaves, advance]
    by_cases inside : index < stack.length
    · refine .inr ⟨inside, .inr ⟨stack[index] :: stack, Bool.false_ne_true.elim, ?_, ?_⟩⟩
      · rw [List.getElem?_eq_getElem inside]
      · rw [List.length_cons]
        omega
    · refine .inl ⟨by omega, ?_⟩
      rw [List.getElem?_eq_none (Nat.not_lt.mp inside)]
  | binary op =>
    rcases stack with _ | ⟨b, _ | ⟨a, stack⟩⟩
    · exact .inl ⟨Nat.two_pos, rfl⟩
    · exact .inl ⟨Nat.one_lt_two, rfl⟩
    · refine .inr ⟨Nat.le_add_left _ _, ?_⟩
      simp only [advance]
      cases value : binaryValue bits op a b with
      | none =>
        obtain ⟨divides, rfl⟩ := (binaryValue_eq_none_iff bits op a b).mp value
        exact .inl ⟨a :: stack, divides, rfl, rfl⟩
      | some n =>
        refine .inr ⟨_, fun divides below same => ?_, rfl, rfl⟩
        cases same
        have none := (binaryValue_eq_none_iff bits op a 0).mpr ⟨divides, rfl⟩
        rw [value] at none
        cases none

/-- A step that ends the description does so where it finds the word that it needs. -/
theorem terminal?_of_isTerminal {step : Step} (ends : isTerminal step = true) (stack : List Nat) :
    (step.takes ≤ stack.length ∧ ∃ result, terminal? step stack = some (.ok result)) ∨
    (step = .stackValue ∧ stack = [] ∧ terminal? step stack = some (.error .emptyStackValue)) := by
  cases step with
  | register | implicitValue => exact .inl ⟨Nat.zero_le _, _, rfl⟩
  | stackValue =>
    cases stack with
    | nil => exact .inr ⟨rfl, rfl, rfl⟩
    | cons a stack => exact .inl ⟨Nat.le_add_left _ _, _, rfl⟩
  | _ => cases ends

theorem not_divides_of_isTerminal {step : Step} (ends : isTerminal step = true) :
    step.divides = false := by
  cases step with
  | register | implicitValue | stackValue => rfl
  | _ => cases ends

theorem terminal?_of_goesOn {step : Step} (goesOn : isTerminal step = false) (stack : List Nat) :
    terminal? step stack = none := by
  cases step with
  | register | implicitValue | stackValue => cases goesOn
  | _ => rfl

/-! ## Programs -/

/-- A place in a program is its front, or a place in what comes behind. -/
theorem cons_eq_append_cons_iff {first op : Operation} {rest before after : List Operation} :
    first :: rest = before ++ op :: after ↔
      before = [] ∧ first = op ∧ rest = after ∨
        ∃ later, before = first :: later ∧ rest = later ++ op :: after := by
  cases before with
  | nil => simp
  | cons head later =>
    simp only [List.cons_append, List.cons.injEq, reduceCtorEq, false_and, false_or]
    constructor
    · rintro ⟨rfl, rfl⟩
      exact ⟨later, ⟨rfl, rfl⟩, rfl⟩
    · rintro ⟨_, ⟨rfl, rfl⟩, rfl⟩
      exact ⟨rfl, rfl⟩

section Front

variable {op : Operation} {rest : List Operation} {after : List Nat} {behind : Nat}

theorem stackBehind_cons (carried : advance bits op.step stack = .ok after) :
    stackBehind bits stack (op :: rest) = stackBehind bits after rest := by
  rw [stackBehind, List.foldlM_cons, carried]
  rfl

/-- A program is reducible if its first operation can be carried out and what comes behind is
reducible on the stack that is left. -/
theorem Reducible.cons (known : effect op ≠ .unsupported)
    (goesOn : isTerminal (effect op) = false) (deep : (effect op).takes ≤ depth)
    (divisor : (effect op).divides = true → ∀ below, stack ≠ 0 :: below)
    (carried : advance bits op.step stack = .ok after)
    (behind : Reducible bits (depth - (effect op).takes + (effect op).leaves) after rest) :
    Reducible bits depth stack (op :: rest) where
  known := List.forall_mem_cons.mpr ⟨known, behind.known⟩
  last := by
    intro before op' after' split ends
    rcases cons_eq_append_cons_iff.mp split with ⟨_, rfl, _⟩ | ⟨later, _, inner⟩
    · rw [goesOn] at ends
      cases ends
    · exact behind.last later op' after' inner ends
  deep := by
    intro before op' after' split
    rcases cons_eq_append_cons_iff.mp split with ⟨rfl, rfl, _⟩ | ⟨later, rfl, inner⟩
    · exact deep
    · exact behind.deep later op' after' inner
  divisors := by
    intro before op' after' split divides words
    rcases cons_eq_append_cons_iff.mp split with ⟨rfl, rfl, _⟩ | ⟨later, rfl, inner⟩
    · exact fun same => divisor divides words (Except.ok.inj same)
    · rw [stackBehind_cons carried]
      exact behind.divisors later op' after' inner divides words
  ended := fun goOn => behind.ended (List.forall_mem_cons.mp goOn).2

/-- What stands in the way behind the first operation stands in the way of the whole program. -/
theorem Blames.cons {fault : Fault} (goesOn : isTerminal (effect op) = false)
    (carried : advance bits op.step stack = .ok after)
    (later : Blames bits (depth - (effect op).takes + (effect op).leaves) after rest fault) :
    Blames bits depth stack (op :: rest) fault := by
  cases later with
  | offline op' mem unknown => exact .offline op' (List.mem_cons_of_mem _ mem) unknown
  | composite before op' after' split ends more =>
    exact .composite (op :: before) op' after' (congrArg (op :: ·) split) ends more
  | underflow before op' after' split shallow =>
    exact .underflow (op :: before) op' after' (congrArg (op :: ·) split) shallow
  | divisionByZero before op' after' split divides below zero =>
    exact .divisionByZero (op :: before) op' after' (congrArg (op :: ·) split) divides below
      ((stackBehind_cons carried).trans zero)
  | emptyStackValue before op' after' split value empty =>
    exact .emptyStackValue (op :: before) op' after' (congrArg (op :: ·) split) value empty
  | emptyStack goOn empty => exact .emptyStack (List.forall_mem_cons.mpr ⟨goesOn, goOn⟩) empty

/-- A program is an operation that ends the description. -/
theorem reducible_singleton (ends : isTerminal (effect op) = true)
    (deep : (effect op).takes ≤ depth) : Reducible bits depth stack [op] := by
  have only {before after : List Operation} {op' : Operation}
      (split : [op] = before ++ op' :: after) : before = [] ∧ op = op' ∧ after = [] := by
    rcases cons_eq_append_cons_iff.mp split with ⟨rfl, rfl, rfl⟩ | ⟨later, _, inner⟩
    · exact ⟨rfl, rfl, rfl⟩
    · simp at inner
  refine ⟨?_, ?_, ?_, ?_, ?_⟩
  · intro op' mem unknown
    rw [List.mem_singleton.mp mem] at unknown
    rw [unknown] at ends
    cases ends
  · intro before op' after' split _
    exact (only split).2.2
  · intro before op' after' split
    obtain ⟨rfl, rfl, rfl⟩ := only split
    exact deep
  · intro before op' after' split divides
    obtain ⟨rfl, rfl, rfl⟩ := only split
    rw [not_divides_of_isTerminal ends] at divides
    cases divides
  · intro goOn
    rw [goOn op List.mem_cons_self] at ends
    cases ends

end Front

/-- What a run shows of a program: that it is reducible, or a fault that is to blame. -/
def Shows (bits : Nat) (stack : List Nat) (operations : List Operation) :
    Except Fault Result → Prop
  | .ok _ => Reducible bits stack.length stack operations
  | .error fault => Blames bits stack.length stack operations fault

theorem run_shows (bits : Nat) (relocated : Bool) (stack : List Nat)
    (operations : List Operation) :
    Shows bits stack operations
      (run bits relocated stack (operations.map Operation.instruction)) := by
  induction operations generalizing relocated stack with
  | nil =>
    cases stack with
    | nil => exact .emptyStack (fun _ => List.not_mem_nil.elim) rfl
    | cons a stack =>
      refine ⟨?_, ?_, ?_, ?_, fun _ => Nat.succ_pos _⟩ <;> simp
  | cons op rest ih =>
    have stepped : op.instruction.step = effect op := (effect_eq_step op).symm
    have named : op.instruction.name = op.name := rfl
    rw [List.map_cons, run, stepped, named]
    cases ends : isTerminal (effect op) with
    | true =>
      rcases terminal?_of_isTerminal ends stack with
        ⟨deep, result, found⟩ | ⟨value, rfl, found⟩
      · simp only [found, List.isEmpty_map]
        cases rest with
        | nil => exact reducible_singleton ends deep
        | cons next rest =>
          exact .composite [] op (next :: rest) rfl ends (List.cons_ne_nil next rest)
      · simp only [found]
        exact .emptyStackValue [] op rest rfl value rfl
    | false =>
      rw [terminal?_of_goesOn ends]
      by_cases known : effect op = .unsupported
      · rw [known]
        exact .offline op List.mem_cons_self known
      · rcases advance_cases known ends bits stack with
          ⟨shallow, failed⟩ |
          ⟨deep, ⟨below, divides, rfl, failed⟩ | ⟨after, divisor, carried, left⟩⟩
        · simp only [failed]
          exact .underflow [] op rest rfl shallow
        · simp only [failed]
          exact .divisionByZero [] op rest rfl divides below rfl
        · have step : advance bits op.step stack = .ok after := effect_eq_step op ▸ carried
          have later := ih (relocated || (effect op).isRelocated) after
          simp only [carried]
          cases ran : run bits (relocated || (effect op).isRelocated) after
              (rest.map Operation.instruction) with
          | ok result =>
            rw [ran, Shows, left] at later
            exact .cons known ends deep divisor step later
          | error fault =>
            rw [ran, Shows, left] at later
            exact .cons ends step later

theorem length_initialStack (bits : Nat) (initial : Option Int) :
    (initialStack bits initial).length = if initial.isSome then 1 else 0 := by
  cases initial <;> rfl

/-- **A program can be reduced if and only if nothing stands in its way**: every operation is known,
one that ends the description is the last, the stack is deep enough for every operation, no divisor
is zero, and a word is left to end with. Otherwise there is a fault that says what stands in the
way. The depth starts at one if a word is pushed first. -/
theorem evaluate_reduces_iff (encoding : Dwarf.Encoding) (operations : List Operation)
    (initial : Option Int) :
    ((∃ result, evaluate encoding operations initial = .ok result) ↔
      Reducible encoding.bits (if initial.isSome then 1 else 0)
        (initialStack encoding.bits initial) operations) ∧
    ∀ fault, evaluate encoding operations initial = .error fault →
      Blames encoding.bits (if initial.isSome then 1 else 0)
        (initialStack encoding.bits initial) operations fault := by
  have shows := run_shows encoding.bits false (initialStack encoding.bits initial) operations
  rw [← length_initialStack encoding.bits initial]
  rw [← evaluate] at shows
  cases found : evaluate encoding operations initial with
  | ok result =>
    rw [found] at shows
    refine ⟨⟨fun _ => shows, fun _ => ⟨result, rfl⟩⟩, ?_⟩
    intro fault same
    cases same
  | error fault =>
    rw [found] at shows
    refine ⟨⟨?_, fun reducible => absurd reducible (not_reducible_of_blames shows)⟩, ?_⟩
    · rintro ⟨result, same⟩
      cases same
    · intro _ same
      cases same
      exact shows

end GlobalMap.Location
