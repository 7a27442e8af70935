import Mathlib.Data.List.TakeWhile
import GlobalMap.Proofs.Location.WordMachine

/-! Computing with whole numbers that are cut down after every step is computing with
words. Each step that leaves words on the stack is matched by a step on words of the
same width, with the same fault where it cannot be taken, and so is a whole program. -/
namespace GlobalMap.Location

open WordMachine

variable {w : Nat} {operations : List Operation}

/-! ## The tables -/

theorem effect_plain_listed : ∀ code < 0xa0,
    (effectIn? plainRows code).getD .unsupported = plainStep code := by
  decide +kernel

theorem plainRows_codes : ∀ row ∈ plainRows, row.code < 0xa0 := by
  decide +kernel

theorem numberRows_codes : ∀ row ∈ numberRows, row.code = 0x03 ∨
    (0x08 ≤ row.code ∧ row.code ≤ 0x11) ∨ row.code = 0x15 ∨ row.code = 0x23 ∨
      row.code = 0x90 := by
  decide +kernel

theorem effectIn?_eq_none {α : Type} {rows : List (Row α)} {code : Nat}
    (absent : ∀ row ∈ rows, row.code ≠ code) : effectIn? rows code = none := by
  rw [effectIn?, Option.map_eq_none_iff, List.find?_eq_none]
  simpa using absent

theorem effect_plain (code : Nat) :
    (effectIn? plainRows code).getD .unsupported = plainStep code := by
  by_cases listed : code < 0xa0
  · exact effect_plain_listed code listed
  · have absent : effectIn? plainRows code = none :=
      effectIn?_eq_none fun row mem same => listed (same ▸ plainRows_codes row mem)
    obtain ⟨k, rfl⟩ := Nat.exists_eq_add_of_le' (Nat.le_of_not_lt listed)
    rw [absent]
    rfl

theorem effect_number (code : Nat) (n : Int) :
    ((effectIn? numberRows code).map (· n)).getD .unsupported = numberStep code n := by
  unfold numberStep
  split
  case h_5 addr pick addConstant register =>
    by_cases constant : 0x08 ≤ code ∧ code ≤ 0x11
    · have listed : code = 0x08 ∨ code = 0x09 ∨ code = 0x0a ∨ code = 0x0b ∨ code = 0x0c ∨
          code = 0x0d ∨ code = 0x0e ∨ code = 0x0f ∨ code = 0x10 ∨ code = 0x11 := by omega
      rw [if_pos constant]
      rcases listed with rfl | rfl | rfl | rfl | rfl | rfl | rfl | rfl | rfl | rfl <;> rfl
    · have absent : ∀ row ∈ numberRows, row.code ≠ code := by
        intro row mem same
        rcases same ▸ numberRows_codes row mem with h | h | h | h | h
        · exact addr h
        · exact constant h
        · exact pick h
        · exact addConstant h
        · exact register h
      rw [if_neg constant, effectIn?_eq_none absent]
      rfl
  all_goals rfl

theorem effect_block (code : Nat) (data : Bytes) :
    ((effectIn? blockRows code).map (· data)).getD .unsupported =
      if code = 0x9e then .implicitValue data.littleEndian else .unsupported := by
  by_cases same : code = 0x9e
  · subst same
    rfl
  · rw [if_neg same, effectIn?_eq_none]
    · rfl
    · simpa [blockRows] using Ne.symm same

/-- The tables give every operation the effect that it is carried out with. -/
theorem effect_eq_step (op : Operation) : effect op = op.step := by
  obtain ⟨code, position, operands⟩ := op
  simp only [effect, Operation.step, Operation.operands, Operation.code, effect_plain,
    effect_number, effect_block]
  rcases operands with _ | ⟨operand | operand | operand, _ | _⟩ <;> rfl

/-! ## Words -/

theorem wrap_eq (n : Int) : wrap w n = (BitVec.ofInt w n).toNat := rfl

/-- The two's complement of a word is read off its highest bit. -/
theorem signed_toNat (a : BitVec w) : signed w a.toNat = a.toInt := by
  rw [signed, BitVec.testBit_toNat, ← BitVec.msb_eq_getLsbD_last, BitVec.toInt_eq_msb_cond]
  rfl

theorem ofInt_toNat (a : BitVec w) : BitVec.ofInt w a.toNat = a := by
  rw [BitVec.ofInt_natCast, BitVec.ofNat_toNat, BitVec.setWidth_eq]

theorem ofInt_natAbs (a : BitVec w) : BitVec.ofInt w a.toInt.natAbs = a.abs := by
  cases sign : a.msb with
  | true =>
    have negative := BitVec.toInt_neg_of_msb_true sign
    rw [BitVec.abs_eq, sign, Int.ofNat_natAbs_of_nonpos (by omega), BitVec.ofInt_neg,
      BitVec.ofInt_toInt]
    rfl
  | false =>
    have nonnegative := BitVec.toInt_nonneg_of_msb_false sign
    rw [BitVec.abs_eq, sign, Int.natAbs_of_nonneg nonnegative, BitVec.ofInt_toInt]
    rfl

/-- An arithmetic shift by more than the width shifts out no more than one by the
width. -/
theorem sshiftRight_of_le {count : Nat} (a : BitVec w) (beyond : w ≤ count) :
    a.sshiftRight count = a.sshiftRight w := by
  cases sign : a.msb with
  | true =>
    rw [BitVec.sshiftRight_eq_of_msb_true sign, BitVec.sshiftRight_eq_of_msb_true sign,
      BitVec.ushiftRight_eq_zero beyond, BitVec.ushiftRight_eq_zero (Nat.le_refl w)]
  | false =>
    rw [BitVec.sshiftRight_eq_of_msb_false sign, BitVec.sshiftRight_eq_of_msb_false sign,
      BitVec.ushiftRight_eq_zero beyond, BitVec.ushiftRight_eq_zero (Nat.le_refl w)]

theorem ofInt_shiftRight (a : BitVec w) (count : Nat) :
    BitVec.ofInt w (a.toInt >>> min count w) = a.sshiftRight count := by
  by_cases within : count ≤ w
  · rw [Nat.min_eq_left within]
    rfl
  · rw [Nat.min_eq_right (by omega), sshiftRight_of_le a (by omega)]
    rfl

theorem ofInt_shl (a b : BitVec w) :
    BitVec.ofInt w (if b.toNat < w then (a.toNat <<< b.toNat : Nat) else 0) = a <<< b := by
  change _ = a <<< b.toNat
  split
  · rw [BitVec.ofInt_natCast]
    apply BitVec.eq_of_toNat_eq
    rw [BitVec.toNat_ofNat, BitVec.toNat_shiftLeft]
  · rw [BitVec.shiftLeft_eq_zero (by omega)]
    rfl

theorem ofInt_shr (a b : BitVec w) :
    BitVec.ofInt w (if b.toNat < w then (a.toNat >>> b.toNat : Nat) else 0) = a >>> b := by
  change _ = a >>> b.toNat
  split
  · rw [← BitVec.toNat_ushiftRight, ofInt_toNat]
  · rw [BitVec.ushiftRight_eq_zero (by omega)]
    rfl

/-- Division of whole numbers leaves the range of words for one quotient only, which
is cut down to the word that is its dividend. -/
theorem ofInt_tdiv (a b : BitVec w) : BitVec.ofInt w (a.toInt.tdiv b.toInt) = a.sdiv b := by
  apply BitVec.eq_of_toInt_eq
  rw [BitVec.toInt_ofInt, BitVec.toInt_sdiv]

theorem ofInt_unaryValue (op : Unary) (a : BitVec w) :
    BitVec.ofInt w (unaryValue w op a.toNat) = unaryWord op a := by
  cases op with
  | neg => rw [unaryValue, signed_toNat, BitVec.ofInt_neg, BitVec.ofInt_toInt, unaryWord]
  | not =>
    rw [unaryValue, Int.sub_eq_add_neg, BitVec.ofInt_add, BitVec.ofInt_neg, ofInt_toNat, unaryWord,
      BitVec.not_eq_neg_add, BitVec.sub_eq_add_neg, BitVec.ofInt_neg]
    rfl
  | abs => rw [unaryValue, signed_toNat, ofInt_natAbs, unaryWord]

theorem ofInt_binaryValue (op : Binary) (a b : BitVec w) :
    (binaryValue w op a.toNat b.toNat).map (BitVec.ofInt w) = binaryWord op a b := by
  have zero : b.toNat = 0 ↔ b = 0 := BitVec.toNat_inj (y := 0)
  cases op with
  | plus =>
    rw [binaryValue, Option.map_some, BitVec.ofInt_add, ofInt_toNat, ofInt_toNat, binaryWord]
  | minus =>
    rw [binaryValue, Option.map_some, Int.sub_eq_add_neg, BitVec.ofInt_add, BitVec.ofInt_neg,
      ofInt_toNat, ofInt_toNat, binaryWord, BitVec.sub_eq_add_neg]
  | mul => rw [binaryValue, Option.map_some, BitVec.ofInt_mul, ofInt_toNat, ofInt_toNat, binaryWord]
  | div =>
    simp only [binaryValue, binaryWord, zero, signed_toNat]
    split
    · rfl
    · rw [Option.map_some, ofInt_tdiv]
  | mod =>
    simp only [binaryValue, binaryWord, zero]
    split
    · rfl
    · rw [Option.map_some, ← BitVec.toNat_umod, ofInt_toNat]
  | and => rw [binaryValue, Option.map_some, ← BitVec.toNat_and, ofInt_toNat, binaryWord]
  | or => rw [binaryValue, Option.map_some, ← BitVec.toNat_or, ofInt_toNat, binaryWord]
  | xor => rw [binaryValue, Option.map_some, ← BitVec.toNat_xor, ofInt_toNat, binaryWord]
  | shl => rw [binaryValue, Option.map_some, ofInt_shl, binaryWord]
  | shr => rw [binaryValue, Option.map_some, ofInt_shr, binaryWord]
  | shra => rw [binaryValue, Option.map_some, signed_toNat, ofInt_shiftRight, binaryWord]

/-! ## Steps -/

/-- The stack that words are, as whole numbers. -/
def numbers (words : List (BitVec w)) : List Nat :=
  words.map BitVec.toNat

/-- A literal that fits a word. No step but a literal pushes a number as it is. -/
def Step.fits (w : Nat) : Step → Prop
  | .literal n => n < Nat.pow 2 w
  | _ => True

theorem fits_step (op : Operation) (wide : 5 ≤ w) : op.step.fits w := by
  have room : Nat.pow 2 5 ≤ Nat.pow 2 w := Nat.pow_le_pow_right (by decide) wide
  have plain (code : Nat) : (plainStep code).fits w := by
    unfold plainStep
    split
    case h_22 =>
      split
      · rename_i literal
        exact Nat.lt_of_lt_of_le (Nat.sub_lt_left_of_lt_add literal.1 literal.2) room
      · split <;> trivial
    all_goals trivial
  have number (code : Nat) (n : Int) : (numberStep code n).fits w := by
    unfold numberStep
    split
    case h_5 => split <;> trivial
    all_goals trivial
  obtain ⟨code, position, operands⟩ := op
  rcases operands with _ | ⟨operand | data | inner, _ | _⟩
  · exact plain code
  · exact number code operand
  · trivial
  · change (if code = 0x9e then Step.implicitValue data.littleEndian else .unsupported).fits w
    split <;> trivial
  all_goals trivial

/-- One step on numbers is one step on words. -/
theorem advance_numbers (step : Step) (fits : step.fits w) (words : List (BitVec w)) :
    advance w step (numbers words) = (carryOut step words).map numbers := by
  cases step with
  | relocated n => rfl
  | constant n => rfl
  | literal n =>
    have whole : (BitVec.ofNat w n).toNat = n := by
      rw [BitVec.toNat_ofNat]
      exact Nat.mod_eq_of_lt fits
    change Except.ok (n :: numbers words) = .ok ((BitVec.ofNat w n).toNat :: numbers words)
    rw [whole]
  | nop => rfl
  | dup => cases words <;> rfl
  | drop => cases words <;> rfl
  | «over» => rcases words with _ | ⟨a, _ | ⟨b, words⟩⟩ <;> rfl
  | pick index =>
    simp only [advance, carryOut, numbers, List.getElem?_map]
    cases words[index]? <;> rfl
  | swap => rcases words with _ | ⟨a, _ | ⟨b, words⟩⟩ <;> rfl
  | rot => rcases words with _ | ⟨a, _ | ⟨b, _ | ⟨c, words⟩⟩⟩ <;> rfl
  | addConstant n =>
    cases words with
    | nil => rfl
    | cons a words =>
      change Except.ok (wrap w (a.toNat + n) :: numbers words) =
        .ok ((a + BitVec.ofInt w n).toNat :: numbers words)
      rw [wrap_eq, BitVec.ofInt_add, ofInt_toNat]
  | unary op =>
    cases words with
    | nil => rfl
    | cons a words =>
      change Except.ok (wrap w (unaryValue w op a.toNat) :: numbers words) =
        .ok ((unaryWord op a).toNat :: numbers words)
      rw [wrap_eq, ofInt_unaryValue]
  | binary op =>
    rcases words with _ | ⟨b, _ | ⟨a, words⟩⟩
    · rfl
    · rfl
    · have found := ofInt_binaryValue op a b
      simp only [numbers, List.map_cons, advance, carryOut, ← found]
      cases binaryValue w op a.toNat b.toNat <;> rfl
  | register number => rfl
  | implicitValue value => rfl
  | stackValue => rfl
  | unsupported => rfl

/-- A terminal step describes the same of numbers and of words, and no other step
describes anything. -/
theorem terminal?_numbers (step : Step) (words : List (BitVec w)) :
    terminal? step (numbers words) =
      if isTerminal step then some (conclude step words) else none := by
  cases step with
  | stackValue => cases words <;> rfl
  | _ => rfl

theorem nameOf_addr_byte : ∀ code < 256, Opcode.nameOf code = "DW_OP_addr" ↔ code = 0x03 := by
  decide +kernel

theorem nameOf_addr_iff (code : Nat) : Opcode.nameOf code = "DW_OP_addr" ↔ code = 0x03 := by
  by_cases byte : code < 256
  · exact nameOf_addr_byte code byte
  · obtain ⟨k, rfl⟩ := Nat.exists_eq_add_of_le' (Nat.le_of_not_lt byte)
    have unnamed : Opcode.nameOf (k + 256) = "" := rfl
    rw [unnamed]
    constructor
    · exact fun same => absurd same (by decide)
    · omega

theorem code_of_isRelocated {op : Operation} (relocated : op.step.isRelocated = true) :
    op.code = 0x03 := by
  obtain ⟨code, position, operands⟩ := op
  have plain : (plainStep code).isRelocated = false := by
    unfold plainStep
    split
    case h_22 =>
      split
      · rfl
      · split <;> rfl
    all_goals rfl
  rcases operands with _ | ⟨n | data | inner, _ | _⟩
  · change (plainStep code).isRelocated = true at relocated
    rw [plain] at relocated
    cases relocated
  · change (numberStep code n).isRelocated = true at relocated
    unfold numberStep at relocated
    split at relocated
    case h_1 => rfl
    case h_5 => split at relocated <;> cases relocated
    all_goals cases relocated
  · cases relocated
  · change (if code = 0x9e then Step.implicitValue data.littleEndian else
      .unsupported).isRelocated = true at relocated
    split at relocated <;> cases relocated
  all_goals cases relocated

/-- Of the operations that can be carried out, those named so push an address of the
object file. -/
theorem isRelocated_of_carryOut {op : Operation} {words after : List (BitVec w)}
    (carried : carryOut op.step words = .ok after) :
    op.step.isRelocated = (op.name == "DW_OP_addr") := by
  rw [Bool.eq_iff_iff, beq_iff_eq]
  constructor
  · exact fun relocated => (nameOf_addr_iff op.code).mpr (code_of_isRelocated relocated)
  · intro named
    obtain ⟨code, position, operands⟩ := op
    have addr : code = 0x03 := (nameOf_addr_iff code).mp named
    subst addr
    rcases operands with _ | ⟨n | data | inner, _ | _⟩
    case cons.number.nil => rfl
    all_goals cases carried

/-! ## Programs -/

theorem carryOutAll_cons (op : Operation) (rest : List Operation) (words : List (BitVec w)) :
    carryOutAll (op :: rest) words =
      match carryOut (effect op) words with
      | .ok after => carryOutAll rest after
      | .error stop => .error (stop.at op.name) := by
  unfold carryOutAll
  rw [List.foldlM_cons]
  cases carryOut (effect op) words <;> rfl

/-- A program on numbers is a program on words. -/
theorem run_numbers (wide : 5 ≤ w) (operations : List Operation) (relocated : Bool)
    (words : List (BitVec w)) :
    run w relocated (numbers words) (operations.map Operation.instruction) =
      carryOutAll (body operations) words >>=
        describe (relocated || pushesAddress (body operations)) (ending operations) := by
  induction operations generalizing relocated words with
  | nil =>
    rw [body, pushesAddress, List.takeWhile_nil, List.any_nil, Bool.or_false]
    cases words <;> rfl
  | cons op rest ih =>
    have terminal := terminal?_numbers op.step words
    have named : op.instruction.name = op.name := rfl
    have stepped : op.instruction.step = op.step := rfl
    rw [List.map_cons, run, stepped, named, terminal]
    cases kind : isTerminal op.step with
    | true =>
      have bodyNil : body (op :: rest) = [] := by
        rw [body, List.takeWhile_cons, effect_eq_step, kind]
        rfl
      have endingAll : ending (op :: rest) = op :: rest := by
        rw [ending, List.dropWhile_cons, effect_eq_step, kind]
        rfl
      rw [bodyNil, endingAll]
      change _ = describe (relocated || pushesAddress []) (op :: rest) words
      simp only [if_true, describe, effect_eq_step, List.isEmpty_map]
      cases conclude op.step words <;> rfl
    | false =>
      have bodyCons : body (op :: rest) = op :: body rest := by
        rw [body, List.takeWhile_cons, effect_eq_step, kind]
        rfl
      have endingRest : ending (op :: rest) = ending rest := by
        rw [ending, List.dropWhile_cons, effect_eq_step, kind]
        rfl
      rw [bodyCons, endingRest, carryOutAll_cons, effect_eq_step,
        advance_numbers op.step (fits_step op wide)]
      cases carried : carryOut op.step words with
      | error stop => rfl
      | ok after =>
        have relocates := isRelocated_of_carryOut carried
        simp only [Except.map, ih, relocates, pushesAddress, List.any_cons, Bool.or_assoc]
        rfl

/-- The stacks that a run goes through, before its first step and behind each step
that is taken. -/
def stacksOf (bits : Nat) (stack : List Nat) : List Instruction → List (List Nat)
  | [] => [stack]
  | i :: rest =>
    stack ::
      match advance bits i.step stack with
      | .ok after => stacksOf bits after rest
      | .error _ => []

/-- Every stack of a run holds words. -/
theorem stacksOf_numbers (wide : 5 ≤ w) (operations : List Operation) (words : List (BitVec w)) :
    ∀ stack ∈ stacksOf w (numbers words) (operations.map Operation.instruction),
      ∃ later : List (BitVec w), stack = numbers later := by
  induction operations generalizing words with
  | nil =>
    intro stack mem
    exact ⟨words, List.mem_singleton.mp mem⟩
  | cons op rest ih =>
    intro stack mem
    have stepped : op.instruction.step = op.step := rfl
    rw [List.map_cons, stacksOf, stepped, advance_numbers op.step (fits_step op wide)] at mem
    rcases List.mem_cons.mp mem with rfl | later
    · exact ⟨words, rfl⟩
    · cases carried : carryOut op.step words with
      | error stop =>
        rw [carried] at later
        cases later
      | ok after =>
        rw [carried] at later
        exact ih after stack later

theorem lt_of_mem_numbers {words : List (BitVec w)} {n : Nat} (mem : n ∈ numbers words) :
    n < Nat.pow 2 w := by
  obtain ⟨a, _, rfl⟩ := List.mem_map.mp mem
  exact a.isLt

theorem wide_bits (encoding : Dwarf.Encoding) : 5 ≤ encoding.bits := by
  unfold Dwarf.Encoding.bits
  cases encoding.addressSize <;> decide

theorem initialStack_numbers (w : Nat) (initial : Option Int) :
    initialStack w initial = numbers (initialWords w initial) := by
  cases initial <;> rfl

/-- Whether a value of this kind is a word of the stack. -/
def Kind.isWord : Kind → Bool
  | .address | .relocatedAddress | .stackValue => true
  | .register | .implicitValue => false

namespace WordMachine

theorem value_lt_of_describe {relocated : Bool} {words : List (BitVec w)} {result : Result}
    (found : describe relocated operations words = .ok result) (word : result.kind.isWord = true) :
    result.value < Nat.pow 2 w := by
  cases operations with
  | nil =>
    cases words with
    | nil => cases found
    | cons a words =>
      cases found
      exact a.isLt
  | cons last rest =>
    simp only [describe] at found
    cases concluded : conclude (effect last) words with
    | error fault =>
      rw [concluded] at found
      cases found
    | ok described =>
      have same : described = result := by
        rw [concluded] at found
        change (if rest.isEmpty then Except.ok described else _) = _ at found
        split at found
        · cases found
          rfl
        · cases found
      subst same
      unfold conclude at concluded
      split at concluded
      · cases concluded
        cases word
      · cases concluded
        cases word
      · rename_i a _ _
        cases concluded
        exact a.isLt
      · cases concluded

theorem value_lt_of_evaluate {initial : Option Int} {result : Result}
    (found : evaluate w operations initial = .ok result) (word : result.kind.isWord = true) :
    result.value < Nat.pow 2 w := by
  unfold evaluate at found
  cases carried : carryOutAll (body operations) (initialWords w initial) with
  | error fault =>
    rw [carried] at found
    cases found
  | ok words =>
    rw [carried] at found
    exact value_lt_of_describe found word

theorem kind_of_evaluate {initial : Option Int} {result : Result}
    (found : evaluate w operations initial = .ok result)
    (plain : ∀ op ∈ operations, isTerminal (effect op) = false) :
    result.kind = if pushesAddress operations then .relocatedAddress else .address := by
  have whole : body operations = operations := by
    rw [body, List.takeWhile_eq_self_iff]
    intro op mem
    rw [plain op mem]
    rfl
  have nothing : ending operations = [] := by
    rw [ending, List.dropWhile_eq_nil_iff]
    intro op mem
    rw [plain op mem]
    rfl
  rw [evaluate, whole, nothing] at found
  cases carried : carryOutAll operations (initialWords w initial) with
  | error fault =>
    rw [carried] at found
    cases found
  | ok words =>
    rw [carried] at found
    cases words with
    | nil => cases found
    | cons a words =>
      cases found
      rfl

end WordMachine

/-- **Reduction is exact arithmetic on words.** A program is reduced to what it gives
on words of the size of an address, with the same fault where it gives nothing. Every
number on the stack is a word at every step, and so is every address and every value
that is taken from the stack. Without a terminal operation an address is one of the
object file if and only if one is pushed. -/
theorem evaluate_eq_words (encoding : Dwarf.Encoding) (operations : List Operation)
    (initial : Option Int) :
    evaluate encoding operations initial =
        WordMachine.evaluate encoding.bits operations initial ∧
      (∀ stack ∈ stacksOf encoding.bits (initialStack encoding.bits initial)
          (operations.map Operation.instruction),
        ∀ n ∈ stack, n < Nat.pow 2 encoding.bits) ∧
      ∀ result, evaluate encoding operations initial = .ok result →
        (result.kind.isWord = true → result.value < Nat.pow 2 encoding.bits) ∧
        ((∀ op ∈ operations, isTerminal (effect op) = false) →
          result.kind = if pushesAddress operations then .relocatedAddress else .address) := by
  have wide := wide_bits encoding
  have same : evaluate encoding operations initial =
      WordMachine.evaluate encoding.bits operations initial := by
    rw [evaluate, initialStack_numbers, run_numbers wide, Bool.false_or, WordMachine.evaluate]
  refine ⟨same, ?_, ?_⟩
  · intro stack mem n inside
    rw [initialStack_numbers] at mem
    obtain ⟨later, rfl⟩ := stacksOf_numbers wide operations _ stack mem
    exact lt_of_mem_numbers inside
  · intro result found
    rw [same] at found
    exact ⟨value_lt_of_evaluate found, kind_of_evaluate found⟩

end GlobalMap.Location
