import GlobalMap.Bytes
/-!
The encodings that debug information is made of: words in either byte order, LEB128 numbers, blocks
and zero-terminated strings.

Each scanner takes what it needs from the front of a byte string and hands back the rest, or fails
when the bytes run out.
-/
namespace GlobalMap.Dwarf

/-- The order of the bytes of a word. -/
inductive ByteOrder where
  | little
  | big
  deriving DecidableEq, Repr

/-- The word that bytes spell in an order. -/
def ByteOrder.value (order : ByteOrder) (bytes : Bytes) : Nat :=
  match order with
  | .little => bytes.littleEndian
  | .big => bytes.bigEndian

/-- The size of an address of the target. -/
inductive AddressSize where
  | four
  | eight
  deriving DecidableEq, Repr

/-- The number of bytes of an address. -/
def AddressSize.bytes : AddressSize → Nat
  | .four => 4
  | .eight => 8

/-- The size that a number of bytes is. -/
def AddressSize.ofBytes? : Nat → Option AddressSize
  | 4 => some .four
  | 8 => some .eight
  | _ => none

/-- The width of offsets inside debug information. -/
inductive Format where
  | dwarf32
  | dwarf64
  deriving DecidableEq, Repr

/-- The number of bytes of an offset. -/
def Format.offsetSize : Format → Nat
  | .dwarf32 => 4
  | .dwarf64 => 8

/-- What the operands of a unit's location programs depend on. -/
structure Encoding where
  addressSize : AddressSize := .four
  order : ByteOrder := .little
  format : Format := .dwarf32
  deriving DecidableEq, Repr

/-- The number of bits of an address. -/
def Encoding.bits (e : Encoding) : Nat :=
  8 * e.addressSize.bytes

/-- A scanner takes a value from the front of a byte string. -/
abbrev Scan (α : Type) := Bytes → Option (α × Bytes)

/-- The next `size` bytes. -/
def block (size : Nat) : Scan Bytes := fun bytes =>
  let taken := bytes.take size
  if taken.length < size then none else some (taken, bytes.drop size)

/-- The next `size` bytes, or all that are left when there are fewer. -/
def blockUpTo (size : Nat) : Scan Bytes := fun bytes =>
  some (bytes.take size, bytes.drop size)

/-- An unsigned word. -/
def word (order : ByteOrder) (width : Nat) : Scan Nat := fun bytes =>
  (block width bytes).map fun (digits, rest) => (order.value digits, rest)

/-- A word in two's complement. -/
def signedWord (order : ByteOrder) (width : Nat) : Scan Int := fun bytes =>
  (word order width bytes).map fun (value, rest) => (Bytes.signed width value, rest)

/-- An unsigned number in LEB128, of any length. -/
def uleb : Scan Nat
  | [] => none
  | b :: rest =>
    if b < 0x80 then some (b.toNat, rest)
    else (uleb rest).map fun (high, rest) => (b.toNat - 0x80 + 0x80 * high, rest)

/-- A signed number in LEB128, of any length. -/
def sleb : Scan Int
  | [] => none
  | b :: rest =>
    if b < 0x40 then some (b.toNat, rest)
    else if b < 0x80 then some (b.toNat - 0x80, rest)
    else (sleb rest).map fun (high, rest) => (b.toNat - 0x80 + 0x80 * high, rest)

/-- The bytes up to the next zero byte, which is taken as well. -/
def terminated : Scan Bytes
  | [] => none
  | b :: rest =>
    if b = 0 then some ([], rest)
    else (terminated rest).map fun (bytes, rest) => (b :: bytes, rest)

/-! A scanner never hands back more than it was given. -/

theorem block_length {size : Nat} {bytes taken rest : Bytes}
    (h : block size bytes = some (taken, rest)) :
    taken.length ≤ bytes.length ∧ rest.length ≤ bytes.length := by
  simp only [block] at h
  split at h
  · simp at h
  · simp only [Option.some.injEq, Prod.mk.injEq] at h
    rw [← h.1, ← h.2, List.length_take, List.length_drop]
    exact ⟨Nat.min_le_right _ _, Nat.sub_le _ _⟩

theorem word_length {order : ByteOrder} {width value : Nat} {bytes rest : Bytes}
    (h : word order width bytes = some (value, rest)) : rest.length ≤ bytes.length := by
  simp only [word, Option.map_eq_some_iff, Prod.mk.injEq, Prod.exists] at h
  obtain ⟨taken, rest', hb, _, rfl⟩ := h
  exact (block_length hb).2

theorem signedWord_length {order : ByteOrder} {width : Nat} {value : Int} {bytes rest : Bytes}
    (h : signedWord order width bytes = some (value, rest)) : rest.length ≤ bytes.length := by
  simp only [signedWord, Option.map_eq_some_iff, Prod.mk.injEq, Prod.exists] at h
  obtain ⟨_, _, hw, _, rfl⟩ := h
  exact word_length hw

theorem uleb_length {value : Nat} {bytes rest : Bytes} (h : uleb bytes = some (value, rest)) :
    rest.length < bytes.length := by
  induction bytes generalizing value with
  | nil => simp [uleb] at h
  | cons b bytes ih =>
    simp only [uleb] at h
    split at h
    · simp only [Option.some.injEq, Prod.mk.injEq] at h
      simp [h.2]
    · simp only [Option.map_eq_some_iff, Prod.mk.injEq, Prod.exists] at h
      obtain ⟨_, _, hu, _, rfl⟩ := h
      have := ih hu
      simp only [List.length_cons]
      omega

theorem sleb_length {value : Int} {bytes rest : Bytes} (h : sleb bytes = some (value, rest)) :
    rest.length < bytes.length := by
  induction bytes generalizing value with
  | nil => simp [sleb] at h
  | cons b bytes ih =>
    simp only [sleb] at h
    split at h
    · simp only [Option.some.injEq, Prod.mk.injEq] at h
      simp [h.2]
    · split at h
      · simp only [Option.some.injEq, Prod.mk.injEq] at h
        simp [h.2]
      · simp only [Option.map_eq_some_iff, Prod.mk.injEq, Prod.exists] at h
        obtain ⟨_, _, hs, _, rfl⟩ := h
        have := ih hs
        simp only [List.length_cons]
        omega

end GlobalMap.Dwarf
