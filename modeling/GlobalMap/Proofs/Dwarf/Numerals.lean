import Mathlib.Data.Nat.Digits.Defs
import GlobalMap.Proofs.Dwarf.Words

/-! Numbers and words as they are spelled. A number in LEB128 has as many numerals as one likes, for
groups of zeros may come behind those that it needs; a word has one spelling in each byte order.
Each of them is read from the front of any bytes that begin with it. -/
namespace GlobalMap.Dwarf

/-- A number in LEB128: groups of seven bits, the lowest first. -/
structure Numeral where
  /-- The groups that another one comes behind. -/
  groups : List (Fin 128)
  last : Fin 128

namespace Numeral

def value (x : Numeral) : Nat :=
  Nat.ofDigits 128 ((x.groups ++ [x.last]).map Fin.val)

def bytes (x : Numeral) : Bytes :=
  x.groups.map (fun group => .ofNat (group.val + 0x80)) ++ [.ofNat x.last.val]

theorem value_nil (last : Fin 128) : value ⟨[], last⟩ = last.val := by
  simp [value]

theorem value_cons (group : Fin 128) (groups : List (Fin 128)) (last : Fin 128) :
    value ⟨group :: groups, last⟩ = group.val + 128 * value ⟨groups, last⟩ := by
  simp [value, Nat.ofDigits_cons]

theorem uleb_bytes (x : Numeral) (rest : Bytes) :
    uleb (x.bytes ++ rest) = some (x.value, rest) := by
  obtain ⟨groups, last⟩ := x
  induction groups with
  | nil =>
    have byte : (UInt8.ofNat last.val).toNat = last.val := by
      rw [UInt8.toNat_ofNat']
      omega
    have small : UInt8.ofNat last.val < 0x80 := by
      rw [UInt8.lt_iff_toNat_lt, byte]
      exact last.isLt
    simp [bytes, uleb, small, byte, value_nil]
  | cons group groups ih =>
    have byte : (UInt8.ofNat (group.val + 0x80)).toNat = group.val + 0x80 := by
      rw [UInt8.toNat_ofNat']
      omega
    have more : ¬ UInt8.ofNat (group.val + 0x80) < 0x80 := by
      rw [UInt8.lt_iff_toNat_lt, byte]
      exact Nat.not_lt.mpr (Nat.le_add_left _ _)
    have shape : bytes ⟨group :: groups, last⟩ ++ rest =
        .ofNat (group.val + 0x80) :: (bytes ⟨groups, last⟩ ++ rest) := rfl
    rw [shape, uleb, if_neg more, ih, Option.map_some, byte, value_cons, Nat.add_sub_cancel]

/-- Every number has a numeral, and one of them takes as few bytes as there can be. -/
theorem exists_shortest (n : Nat) : ∃ x : Numeral, x.value = n ∧ x.bytes = ulebBytes n := by
  induction n using ulebBytes.induct with
  | case1 n small =>
    refine ⟨⟨[], ⟨n, small⟩⟩, value_nil _, ?_⟩
    rw [ulebBytes, if_pos small]
    rfl
  | case2 n large ih =>
    obtain ⟨x, value, bytes⟩ := ih
    refine ⟨⟨⟨n % 0x80, Nat.mod_lt n (by decide)⟩ :: x.groups, x.last⟩, ?_, ?_⟩
    · rw [value_cons, value]
      exact Nat.mod_add_div n 0x80
    · rw [ulebBytes, if_neg large, ← bytes]
      rfl

end Numeral

/-- A word in a byte order. -/
def wordBytes (order : ByteOrder) (width n : Nat) : Bytes :=
  match order with
  | .little => Bytes.ofNatLittle width n
  | .big => (Bytes.ofNatLittle width n).reverse

theorem word_wordBytes {width n : Nat} (fits : n < Nat.pow 256 width) (order : ByteOrder)
    (rest : Bytes) : word order width (wordBytes order width n ++ rest) = some (n, rest) := by
  cases order with
  | little => exact word_append fits rest
  | big =>
    have taken := block_append (Bytes.ofNatLittle width n).reverse rest
    rw [List.length_reverse, Bytes.length_ofNatLittle] at taken
    rw [word, wordBytes, taken, Option.map_some]
    change some (Bytes.littleEndian (Bytes.ofNatLittle width n).reverse.reverse, rest) = _
    rw [List.reverse_reverse, Bytes.littleEndian_ofNatLittle fits]

end GlobalMap.Dwarf
