import GlobalMap.Dwarf.Cursor
import GlobalMap.Proofs.Coff.Words

/-! What is written at a place is taken from there, whatever stands behind it, and the cursor that
is handed back stands right behind what was taken. -/
namespace GlobalMap.Dwarf

/-- A number in LEB128, in as few bytes as there can be. -/
def ulebBytes (n : Nat) : Bytes :=
  if n < 0x80 then [.ofNat n] else .ofNat (n % 0x80 + 0x80) :: ulebBytes (n / 0x80)
termination_by n

/-- A text and the zero byte behind it. -/
def textBytes (s : String) : Bytes :=
  encoded s ++ [0]

/-- Bytes behind their number, which takes one byte as long as there are fewer than 128 of them. -/
def blockBytes (data : Bytes) : Bytes :=
  ulebBytes data.length ++ data

variable {data rest : Bytes} {n width : Nat}

/-! ## Scanners -/

theorem block_append (data rest : Bytes) :
    block data.length (data ++ rest) = some (data, rest) := by
  simp only [block, List.take_left, List.drop_left, Nat.lt_irrefl, if_false]

theorem word_append (fits : n < Nat.pow 256 width) (rest : Bytes) :
    word .little width (Bytes.ofNatLittle width n ++ rest) = some (n, rest) := by
  have taken := block_append (Bytes.ofNatLittle width n) rest
  rw [Bytes.length_ofNatLittle] at taken
  rw [word, taken, Option.map_some]
  change some (Bytes.littleEndian _, rest) = _
  rw [Bytes.littleEndian_ofNatLittle fits]

theorem uleb_append (n : Nat) (rest : Bytes) : uleb (ulebBytes n ++ rest) = some (n, rest) := by
  induction n using ulebBytes.induct with
  | case1 n small =>
    have value : (UInt8.ofNat n).toNat = n := by
      rw [UInt8.toNat_ofNat']
      omega
    have last : UInt8.ofNat n < 0x80 := by
      rw [UInt8.lt_iff_toNat_lt, value]
      exact small
    rw [ulebBytes, if_pos small, List.singleton_append, uleb, if_pos last, value]
  | case2 n large ih =>
    have value : (UInt8.ofNat (n % 0x80 + 0x80)).toNat = n % 0x80 + 0x80 := by
      rw [UInt8.toNat_ofNat']
      omega
    have more : ¬ UInt8.ofNat (n % 0x80 + 0x80) < 0x80 := by
      rw [UInt8.lt_iff_toNat_lt, value]
      exact Nat.not_lt.mpr (Nat.le_add_left _ _)
    have digits := Nat.mod_add_div n 0x80
    rw [ulebBytes, if_neg large, List.cons_append, uleb, if_neg more, ih, Option.map_some, value]
    dsimp only
    rw [Nat.add_sub_cancel, digits]

theorem terminated_append (plain : 0 ∉ data) (rest : Bytes) :
    terminated (data ++ 0 :: rest) = some (data, rest) := by
  induction data with
  | nil => rfl
  | cons b data ih =>
    have nonzero : b ≠ 0 := fun zero => plain (zero ▸ List.mem_cons_self)
    have others : 0 ∉ data := fun mem => plain (List.mem_cons_of_mem _ mem)
    rw [List.cons_append, terminated, if_neg nonzero, ih others, Option.map_some]

/-! ## Cursors -/

namespace Cursor

variable {offset : Nat}

theorem block_at (offset : Nat) (data rest : Bytes) :
    (Cursor.mk offset (data ++ rest)).block data.length =
      some (data, ⟨offset + data.length, rest⟩) := by
  rw [block, block_append, Option.map_some]

theorem word_at (fits : n < Nat.pow 256 width) (offset : Nat) (rest : Bytes) :
    (Cursor.mk offset (Bytes.ofNatLittle width n ++ rest)).word width =
      some (n, ⟨offset + width, rest⟩) := by
  rw [word, word_append fits, Option.map_some]

theorem lebSize_append (n : Nat) (rest : Bytes) :
    lebSize (ulebBytes n ++ rest) = (ulebBytes n).length := by
  induction n using ulebBytes.induct with
  | case1 n small =>
    have last : ¬ (0x80 : UInt8) ≤ UInt8.ofNat n := by
      rw [UInt8.le_iff_toNat_le, UInt8.toNat_ofNat', Nat.mod_eq_of_lt (by omega)]
      exact Nat.not_le.mpr small
    simp [ulebBytes, small, lebSize, last]
  | case2 n large ih =>
    have more : (0x80 : UInt8) ≤ UInt8.ofNat (n % 0x80 + 0x80) := by
      rw [UInt8.le_iff_toNat_le, UInt8.toNat_ofNat', Nat.mod_eq_of_lt (by omega)]
      exact Nat.le_add_left _ _
    rw [lebSize] at ih
    rw [ulebBytes, if_neg large, lebSize, List.cons_append,
      List.takeWhile_cons_of_pos (by simpa using more), List.length_cons, List.length_cons, ih]

theorem uleb_at (offset n : Nat) (rest : Bytes) :
    (Cursor.mk offset (ulebBytes n ++ rest)).uleb =
      some (n, ⟨offset + (ulebBytes n).length, rest⟩) := by
  rw [uleb, uleb_append, Option.map_some, lebSize_append]

theorem terminated_at {s : String} (plain : '\x00' ∉ s.toList) (offset : Nat) (rest : Bytes) :
    (Cursor.mk offset (textBytes s ++ rest)).terminated =
      some (encoded s, ⟨offset + (textBytes s).length, rest⟩) := by
  have shape : textBytes s ++ rest = encoded s ++ 0 :: rest := by
    rw [textBytes, List.append_assoc, List.singleton_append]
  rw [terminated, shape, terminated_append (zero_notMem_encoded plain), Option.map_some, textBytes,
    List.length_append, List.length_singleton, ← Nat.add_assoc]

/-- The bytes behind their number, as one value. -/
theorem counted_at (offset : Nat) (data rest : Bytes) :
    ((Cursor.mk offset (blockBytes data ++ rest)).uleb.bind fun (size, c) => c.block size) =
      some (data, ⟨offset + (blockBytes data).length, rest⟩) := by
  rw [blockBytes, List.append_assoc, uleb_at, Option.bind_some]
  dsimp only
  rw [block_at, List.length_append, Nat.add_assoc]

theorem ofOffset_append (front rest : Bytes) :
    ofOffset (front ++ rest) front.length = ⟨front.length, rest⟩ := by
  rw [ofOffset, List.drop_left]

end Cursor

end GlobalMap.Dwarf
