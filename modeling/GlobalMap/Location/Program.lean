import GlobalMap.Location.Opcode
/-!
Location programs as sequences of operations.

A program is decoded operation by operation up to its last byte (`decode`). An operation that holds
a program of its own is decoded with it, the positions in the inner program counted from its start.
-/
namespace GlobalMap.Location

open Dwarf

/-- An operand: a number, bytes, or the operations of an inner program. -/
inductive Operand (Op : Type) where
  | number (n : Int)
  | bytes (data : Bytes)
  | program (operations : List Op)

/-- An operation: its code, where it stands in its program, and its operands. -/
inductive Operation where
  | mk (code : Nat) (position : Nat) (operands : List (Operand Operation))

namespace Operation

def code : Operation → Nat
  | mk code _ _ => code

def position : Operation → Nat
  | mk _ position _ => position

def operands : Operation → List (Operand Operation)
  | mk _ _ operands => operands

/-- The name of an operation. -/
def name (op : Operation) : String :=
  Opcode.nameOf op.code

end Operation

/-- One operand of a form. -/
def scanOperand (encoding : Encoding) (form : Form) (bytes : Bytes) :
    Option (Operand Operation × Bytes) :=
  match form with
  | .unsigned width =>
    (word encoding.order width bytes).map fun (n, rest) => (.number n, rest)
  | .signed width => (signedWord encoding.order width bytes).map fun (n, rest) => (.number n, rest)
  | .uleb => (uleb bytes).map fun (n, rest) => (.number n, rest)
  | .sleb => (sleb bytes).map fun (n, rest) => (.number n, rest)
  | .address =>
    (word encoding.order encoding.addressSize.bytes bytes).map fun (n, rest) => (.number n, rest)
  | .offset =>
    (word encoding.order encoding.format.offsetSize bytes).map fun (n, rest) => (.number n, rest)
  | .block => do
    let (size, rest) ← uleb bytes
    let (data, rest) ← blockUpTo size rest
    return (.bytes data, rest)
  | .shortBlock => do
    let (size, rest) ← word encoding.order 1 bytes
    let (data, rest) ← blockUpTo size rest
    return (.bytes data, rest)

/-- Operands of forms, one after the other. -/
def scanOperands (encoding : Encoding) : List Form → Scan (List (Operand Operation))
  | [], bytes => some ([], bytes)
  | form :: forms, bytes => do
    let (operand, rest) ← scanOperand encoding form bytes
    let (operands, rest) ← scanOperands encoding forms rest
    return (operand :: operands, rest)

/-- The form of the index that goes with a kind. -/
def indexForm? (kind : Nat) : Option Form :=
  if kind ≤ 2 then some .uleb else if kind = 3 then some (.unsigned 4) else none

/-- A kind and the index that goes with it. -/
def scanTagged (encoding : Encoding) (bytes : Bytes) :
    Option (List (Operand Operation) × Bytes) := do
  let (kind, rest) ← word encoding.order 1 bytes
  let form ← indexForm? kind
  let (operand, rest) ← scanOperand encoding form rest
  return ([.number kind, operand], rest)

/-- The block that holds an inner program. -/
def scanInner (bytes : Bytes) : Option (Bytes × Bytes) := do
  let (size, rest) ← uleb bytes
  blockUpTo size rest

theorem scanOperand_length {encoding : Encoding} {form : Form} {operand : Operand Operation}
    {bytes rest : Bytes} (h : scanOperand encoding form bytes = some (operand, rest)) :
    rest.length ≤ bytes.length := by
  cases form with
  | unsigned | address | offset =>
    simp only [scanOperand, Option.map_eq_some_iff, Prod.mk.injEq, Prod.exists] at h
    obtain ⟨_, _, hw, _, rfl⟩ := h
    exact word_length hw
  | signed =>
    simp only [scanOperand, Option.map_eq_some_iff, Prod.mk.injEq, Prod.exists] at h
    obtain ⟨_, _, hw, _, rfl⟩ := h
    exact signedWord_length hw
  | uleb =>
    simp only [scanOperand, Option.map_eq_some_iff, Prod.mk.injEq, Prod.exists] at h
    obtain ⟨_, _, hu, _, rfl⟩ := h
    exact Nat.le_of_lt (uleb_length hu)
  | sleb =>
    simp only [scanOperand, Option.map_eq_some_iff, Prod.mk.injEq, Prod.exists] at h
    obtain ⟨_, _, hs, _, rfl⟩ := h
    exact Nat.le_of_lt (sleb_length hs)
  | block =>
    simp only [scanOperand, blockUpTo, Option.bind_eq_bind, Option.bind_eq_some_iff, Prod.exists,
      Option.some.injEq, Prod.mk.injEq, Option.pure_def] at h
    obtain ⟨_, _, hu, _, _, ⟨_, rfl⟩, _, rfl⟩ := h
    have := uleb_length hu
    simp only [List.length_drop]
    omega
  | shortBlock =>
    simp only [scanOperand, blockUpTo, Option.bind_eq_bind, Option.bind_eq_some_iff, Prod.exists,
      Option.some.injEq, Prod.mk.injEq, Option.pure_def] at h
    obtain ⟨_, _, hw, _, _, ⟨_, rfl⟩, _, rfl⟩ := h
    have := word_length hw
    simp only [List.length_drop]
    omega

theorem scanOperands_length {encoding : Encoding} {forms : List Form}
    {operands : List (Operand Operation)} {bytes rest : Bytes}
    (h : scanOperands encoding forms bytes = some (operands, rest)) :
    rest.length ≤ bytes.length := by
  induction forms generalizing operands bytes with
  | nil =>
    simp only [scanOperands, Option.some.injEq, Prod.mk.injEq] at h
    simp [h.2]
  | cons form forms ih =>
    simp only [scanOperands, Option.bind_eq_bind, Option.bind_eq_some_iff, Prod.exists,
      Option.some.injEq, Prod.mk.injEq, Option.pure_def] at h
    obtain ⟨_, _, ho, _, _, hs, _, rfl⟩ := h
    exact Nat.le_trans (ih hs) (scanOperand_length ho)

theorem scanTagged_length {encoding : Encoding} {operands : List (Operand Operation)}
    {bytes rest : Bytes} (h : scanTagged encoding bytes = some (operands, rest)) :
    rest.length ≤ bytes.length := by
  simp only [scanTagged, Option.bind_eq_bind, Option.bind_eq_some_iff, Prod.exists,
    Option.some.injEq, Prod.mk.injEq, Option.pure_def] at h
  obtain ⟨_, _, hw, _, _, _, _, ho, _, rfl⟩ := h
  exact Nat.le_trans (scanOperand_length ho) (word_length hw)

theorem scanInner_length {inner bytes rest : Bytes} (h : scanInner bytes = some (inner, rest)) :
    inner.length < bytes.length ∧ rest.length < bytes.length := by
  simp only [scanInner, blockUpTo, Option.bind_eq_bind, Option.bind_eq_some_iff, Prod.exists,
    Option.some.injEq, Prod.mk.injEq] at h
  obtain ⟨_, _, hu, rfl, rfl⟩ := h
  have := uleb_length hu
  simp only [List.length_drop, List.length_take]
  omega

/-- The operations that bytes spell, the first of them at `position`. -/
def decodeFrom (encoding : Encoding) (position : Nat) (bytes : Bytes) :
    Option (List Operation) :=
  match bytes with
  | [] => some []
  | code :: rest =>
    match Opcode.ofCode? code.toNat with
    | none => none
    | some opcode =>
      match opcode.shape with
      | .operands forms =>
        match h : scanOperands encoding forms rest with
        | none => none
        | some (operands, after) => do
          have := scanOperands_length h
          let later ← decodeFrom encoding (position + (1 + rest.length - after.length)) after
          return .mk code.toNat position operands :: later
      | .tagged =>
        match h : scanTagged encoding rest with
        | none => none
        | some (operands, after) => do
          have := scanTagged_length h
          let later ← decodeFrom encoding (position + (1 + rest.length - after.length)) after
          return .mk code.toNat position operands :: later
      | .program =>
        match h : scanInner rest with
        | none => none
        | some (inner, after) => do
          have := scanInner_length h
          let operations ← decodeFrom encoding 0 inner
          let later ← decodeFrom encoding (position + (1 + rest.length - after.length)) after
          return .mk code.toNat position [.program operations] :: later
termination_by bytes.length

/-- The operations of a program. -/
def decode (encoding : Encoding) (program : Bytes) : Option (List Operation) :=
  decodeFrom encoding 0 program

/-- The bytes that a list of numbers is, if each of them fits a byte. -/
def bytesOf? (numbers : List Int) : Option Bytes :=
  numbers.mapM fun n => if 0 ≤ n ∧ n < 256 then some (UInt8.ofNat n.toNat) else none

end GlobalMap.Location
