import GlobalMap.Coff.Image

/-! What is written to a byte string is found there again. A word or a range is
found where it was put, whatever stands in front of it and behind it, and a text is
found up to the zero byte behind it. -/
namespace GlobalMap

namespace Bytes

theorem length_ofNatLittle (width n : Nat) : (ofNatLittle width n).length = width := by
  induction width generalizing n with
  | zero => rfl
  | succ width ih => rw [ofNatLittle, List.length_cons, ih]

/-- A number that fits a word is the number that the word holds. -/
theorem littleEndian_ofNatLittle {width n : Nat} (fits : n < Nat.pow 256 width) :
    littleEndian (ofNatLittle width n) = n := by
  induction width generalizing n with
  | zero =>
    have zero : n = 0 := Nat.lt_one_iff.mp fits
    rw [zero]
    rfl
  | succ width ih =>
    have lower : n / 256 < Nat.pow 256 width := Nat.div_lt_of_lt_mul (by
      rwa [Nat.mul_comm])
    have digits := Nat.mod_add_div n 256
    rw [ofNatLittle, littleEndian, ih lower, UInt8.toNat_ofNat']
    exact digits

theorem readWord_append (front word rest : Bytes) :
    readWord word.length (front ++ (word ++ rest)) front.length = .ok (littleEndian word) := by
  have inside : ¬ ((front.length : Int) < 0 ∨
      ((front ++ (word ++ rest)).length : Int) < front.length + word.length) := by
    simp only [List.length_append]
    omega
  rw [readWord, if_neg inside, Int.toNat_natCast, List.drop_left, List.take_left]

theorem cut_append (front inner rest : Bytes) (what : String) :
    cut (front ++ (inner ++ rest)) front.length inner.length what = .ok inner := by
  have inside : ¬ ((front.length : Int) < 0 ∨ (inner.length : Int) < 0 ∨
      ((front ++ (inner ++ rest)).length : Int) < front.length + inner.length) := by
    simp only [List.length_append]
    omega
  rw [cut, if_neg inside, Int.toNat_natCast, Int.toNat_natCast, List.drop_left, List.take_left]

/-- Words one after the other, each given by its width and its value. -/
def pack (words : List (Nat × Nat)) : Bytes :=
  words.flatMap fun word => ofNatLittle word.1 word.2

/-- A packed word is read where the ones before it end. -/
theorem readWord_pack {width n offset : Nat} (front : Bytes) (before after : List (Nat × Nat))
    (rest : Bytes) (place : offset = front.length + (pack before).length)
    (fits : n < Nat.pow 256 width) :
    readWord width (front ++ (pack (before ++ (width, n) :: after) ++ rest)) offset = .ok n := by
  have shape : front ++ (pack (before ++ (width, n) :: after) ++ rest) =
      (front ++ pack before) ++ (ofNatLittle width n ++ (pack after ++ rest)) := by
    simp only [pack, List.flatMap_append, List.flatMap_cons, List.append_assoc]
  have found := readWord_append (front ++ pack before) (ofNatLittle width n) (pack after ++ rest)
  rw [length_ofNatLittle, littleEndian_ofNatLittle fits, List.length_append] at found
  rw [shape, place]
  exact found

end Bytes

/-- The bytes that a text is written as. -/
def encoded (s : String) : Bytes :=
  s.toUTF8.data.toList

theorem utf8?_encoded (s : String) : (encoded s).utf8? = some s := by
  have bytes : (⟨(encoded s).toArray⟩ : ByteArray) = s.toByteArray := rfl
  rw [Bytes.utf8?, bytes, String.fromUTF8?, dif_pos s.isValidUTF8]
  rfl

theorem encoded_eq_flatMap (s : String) : encoded s = s.toList.flatMap String.utf8EncodeChar := by
  rw [encoded, String.toUTF8_eq_toByteArray, ← String.utf8Encode_toList, List.utf8Encode,
    List.toList_data_toByteArray]

theorem encoded_ne_nil {s : String} (named : s ≠ "") : encoded s ≠ [] := by
  intro empty
  have decoded := utf8?_encoded s
  rw [empty] at decoded
  have blank : Bytes.utf8? [] = some "" := utf8?_encoded ""
  rw [blank] at decoded
  cases decoded
  exact named rfl

theorem ofNat_ne_zero {n : Nat} (positive : 0 < n) (small : n < 256) : (0 : UInt8) ≠ .ofNat n := by
  intro equal
  have value := congrArg UInt8.toNat equal
  rw [UInt8.toNat_ofNat', Nat.mod_eq_of_lt small] at value
  have zero : n = 0 := value.symm
  omega

/-- No character but the zero character has a zero byte in it. -/
theorem zero_notMem_encodeChar {c : Char} (nonzero : c ≠ '\x00') :
    0 ∉ String.utf8EncodeChar c := by
  have positive : 0 < c.val.toNat := by
    apply Nat.pos_of_ne_zero
    intro zero
    exact nonzero (Char.ext (UInt32.toNat_inj.mp zero))
  unfold String.utf8EncodeChar
  dsimp only
  split
  · simp only [List.mem_singleton]
    exact ofNat_ne_zero positive (by omega)
  · split
    · simp only [List.mem_cons, List.not_mem_nil, or_false, not_or]
      exact ⟨ofNat_ne_zero (by omega) (by omega), ofNat_ne_zero (by omega) (by omega)⟩
    · split
      · simp only [List.mem_cons, List.not_mem_nil, or_false, not_or]
        exact ⟨ofNat_ne_zero (by omega) (by omega), ofNat_ne_zero (by omega) (by omega),
          ofNat_ne_zero (by omega) (by omega)⟩
      · simp only [List.mem_cons, List.not_mem_nil, or_false, not_or]
        exact ⟨ofNat_ne_zero (by omega) (by omega), ofNat_ne_zero (by omega) (by omega),
          ofNat_ne_zero (by omega) (by omega), ofNat_ne_zero (by omega) (by omega)⟩

theorem zero_notMem_encoded {s : String} (plain : '\x00' ∉ s.toList) : 0 ∉ encoded s := by
  rw [encoded_eq_flatMap]
  intro mem
  obtain ⟨c, isChar, mem⟩ := List.mem_flatMap.mp mem
  refine zero_notMem_encodeChar ?_ mem
  rintro rfl
  exact plain isChar

namespace Coff

theorem untilZero_append {name : Bytes} (plain : 0 ∉ name) (rest : Bytes) :
    untilZero (name ++ rest) = name ++ untilZero rest := by
  apply List.takeWhile_append_of_pos
  intro b mem
  rw [bne_iff_ne]
  rintro rfl
  exact plain mem

theorem untilZero_replicate (count : Nat) : untilZero (List.replicate count 0) = [] := by
  cases count with
  | zero => rfl
  | succ count => rfl

theorem decodeName_encoded (s : String) : decodeName (encoded s) = .ok s := by
  rw [decodeName, utf8?_encoded]

end Coff

end GlobalMap
