import GlobalMap.Location.Machine
import GlobalMap.Proofs.Dwarf.Numerals

/-! Programs that put an address in place or start from one, and add to it. They are read from
their bytes whatever numerals the numbers are spelled with, and what they compute is the sum, cut
down to a word once. -/
namespace GlobalMap.Location

open Dwarf

variable {encoding : Encoding} {program : Bytes} {instructions : List Instruction}

/-- Bytes as the numbers that they are. -/
def byteValues (program : Bytes) : List Int :=
  program.map fun b => (b.toNat : Int)

/-- A program that adds numbers to the word on top. -/
def plusCode (ns : List Numeral) : Bytes :=
  ns.flatMap fun n => 0x23 :: n.bytes

/-- A program that pushes an address of the object file. -/
def addressCode (encoding : Encoding) (address : Nat) : Bytes :=
  0x03 :: wordBytes encoding.order encoding.addressSize.bytes address

/-- The sum of numbers, however they are spelled. -/
def total (ns : List Numeral) : Nat :=
  (ns.map Numeral.value).sum

/-! ## Decoding -/

/-- Bytes are a program of these instructions, wherever it stands. -/
def Reads (encoding : Encoding) (program : Bytes) (instructions : List Instruction) : Prop :=
  ∀ position, ∃ operations, decodeFrom encoding position program = some operations ∧
    operations.map Operation.instruction = instructions

/-- An operation with its operands, and the program behind it. -/
theorem Reads.cons {opcode : Opcode} {forms : List Form} (code : UInt8) (operands : Bytes)
    (values : List (Operand Operation)) (listed : Opcode.ofCode? code.toNat = some opcode)
    (shape : opcode.shape = .operands forms)
    (scanned : scanOperands encoding forms (operands ++ program) = some (values, program))
    (later : Reads encoding program instructions) :
    Reads encoding (code :: (operands ++ program))
      ((Operation.mk code.toNat 0 values).instruction :: instructions) := by
  intro position
  obtain ⟨operations, decoded, read⟩ :=
    later (position + (1 + (operands ++ program).length - program.length))
  refine ⟨.mk code.toNat position values :: operations, ?_, by rw [List.map_cons, read]; rfl⟩
  rw [decodeFrom]
  simp only [listed]
  split
  · rename_i forms' same
    rw [shape] at same
    cases same
    split
    · rename_i failed
      rw [scanned] at failed
      cases failed
    · rename_i found
      rw [scanned] at found
      cases found
      rw [decoded]
      rfl
  · rename_i other
    rw [shape] at other
    cases other
  · rename_i other
    rw [shape] at other
    cases other

theorem reads_plusCode (encoding : Encoding) (ns : List Numeral) :
    Reads encoding (plusCode ns)
      (ns.map fun n => ⟨"DW_OP_plus_uconst", .addConstant n.value⟩) := by
  induction ns with
  | nil => exact fun _ => ⟨[], by rw [plusCode, List.flatMap_nil, decodeFrom], rfl⟩
  | cons n ns ih =>
    refine .cons 0x23 n.bytes [.number n.value] rfl rfl ?_ ih
    simp [scanOperands, scanOperand, n.uleb_bytes]

/-- The words of the target are as wide as its addresses. -/
theorem pow_bits (encoding : Encoding) :
    Nat.pow 2 encoding.bits = Nat.pow 256 encoding.addressSize.bytes := by
  unfold Encoding.bits
  cases encoding.addressSize <;> rfl

theorem reads_addressCode {address : Nat} (fits : address < Nat.pow 2 encoding.bits)
    (ns : List Numeral) :
    Reads encoding (addressCode encoding address ++ plusCode ns)
      (⟨"DW_OP_addr", .relocated address⟩ ::
        ns.map fun n => ⟨"DW_OP_plus_uconst", .addConstant n.value⟩) := by
  refine .cons 0x03 _ [.number address] rfl rfl ?_ (reads_plusCode encoding ns)
  rw [pow_bits] at fits
  simp [scanOperands, scanOperand, word_wordBytes fits]

theorem bytesOf?_byteValues (program : Bytes) : bytesOf? (byteValues program) = some program := by
  induction program with
  | nil => rfl
  | cons b rest ih =>
    have below : (b.toNat : Int) < 256 := by
      have := b.toNat_lt
      omega
    simp only [bytesOf?, byteValues, List.map_cons, List.mapM_cons] at ih ⊢
    simp [ih, below]

/-- A program that is read as instructions is carried out as those. -/
theorem locate_of_reads (reads : Reads encoding program instructions) (initial : Option Int) :
    locate encoding (byteValues program) initial =
      run encoding.bits false (initialStack encoding.bits initial) instructions := by
  obtain ⟨operations, decoded, rfl⟩ := reads 0
  have whole : (bytesOf? (byteValues program) >>= decode encoding) = some operations := by
    rw [bytesOf?_byteValues]
    exact decoded
  rw [locate, whole]
  rfl

/-! ## Sums -/

theorem wrap_natCast (bits n : Nat) : wrap bits n = n % Nat.pow 2 bits := by
  rw [wrap, ← Int.natCast_mod, Int.toNat_natCast]

/-- Each number is added to a word and the sum cut down to a word, which is the same as cutting down
once in the end. -/
theorem run_plus (bits : Nat) (relocated : Bool) (ns : List Numeral) {word : Nat}
    (fits : word < Nat.pow 2 bits) :
    run bits relocated [word] (ns.map fun n => ⟨"DW_OP_plus_uconst", .addConstant n.value⟩) =
      .ok ⟨if relocated then .relocatedAddress else .address,
        (word + total ns) % Nat.pow 2 bits⟩ := by
  induction ns generalizing word with
  | nil =>
    rw [total, List.map_nil, List.map_nil, List.sum_nil, Nat.add_zero, Nat.mod_eq_of_lt fits]
    rfl
  | cons n ns ih =>
    have room : 0 < Nat.pow 2 bits := Nat.zero_lt_of_lt fits
    have step : advance bits (.addConstant n.value) [word] =
        .ok [(word + n.value) % Nat.pow 2 bits] := by
      rw [← wrap_natCast, Int.natCast_add]
      rfl
    have below := ih (Nat.mod_lt (word + n.value) room)
    rw [Nat.mod_add_mod, Nat.add_assoc] at below
    rw [List.map_cons, run]
    simp only [terminal?, step, Step.isRelocated, Bool.or_false, below]
    rw [total, total, List.map_cons, List.sum_cons]

/-- An address with numbers added to it. -/
theorem locate_address_plus {address : Nat} (fits : address < Nat.pow 2 encoding.bits)
    (ns : List Numeral) :
    locate encoding (byteValues (addressCode encoding address ++ plusCode ns)) none =
      .ok ⟨.relocatedAddress, (address + total ns) % Nat.pow 2 encoding.bits⟩ := by
  have pushed : advance encoding.bits (.relocated address) [] = .ok [address] := by
    rw [advance, wrap_natCast, Nat.mod_eq_of_lt fits]
  rw [locate_of_reads (reads_addressCode fits ns), run]
  simp only [terminal?, initialStack, Option.map_none, Option.toList_none, pushed,
    Step.isRelocated, Bool.false_or, run_plus encoding.bits true ns fits, if_true]

/-- A word that is given, with numbers added to it. -/
theorem locate_plus (encoding : Encoding) (initial : Int) (ns : List Numeral) :
    locate encoding (byteValues (plusCode ns)) (some initial) =
      .ok ⟨.address, ((initial + total ns) % Nat.pow 2 encoding.bits).toNat⟩ := by
  have positive : (0 : Int) < Nat.pow 2 encoding.bits := by
    have := Nat.pow_pos (n := encoding.bits) Nat.two_pos
    exact Int.natCast_pos.mpr this
  have cut : (wrap encoding.bits initial : Int) = initial % Nat.pow 2 encoding.bits :=
    Int.toNat_of_nonneg (Int.emod_nonneg initial (Int.ne_of_gt positive))
  have fits : wrap encoding.bits initial < Nat.pow 2 encoding.bits := by
    have := Int.emod_lt_of_pos initial positive
    omega
  have once : (wrap encoding.bits initial + total ns) % Nat.pow 2 encoding.bits =
      ((initial + total ns) % Nat.pow 2 encoding.bits).toNat := by
    rw [← Int.toNat_natCast ((wrap encoding.bits initial + total ns) % Nat.pow 2 encoding.bits),
      Int.natCast_mod, Int.natCast_add, cut, Int.emod_add_emod]
  rw [locate_of_reads (reads_plusCode encoding ns), ← once]
  exact run_plus encoding.bits false ns fits

end GlobalMap.Location
