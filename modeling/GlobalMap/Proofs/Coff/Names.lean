import GlobalMap.Proofs.Coff.Acceptance
import GlobalMap.Proofs.Coff.Words
import Mathlib.Data.List.TakeWhile

/-! What a name field says. `NameBytes` finds the bytes of a name by the first byte of its field and
the reference behind it, and `Unnamed` says what keeps a field from having a name; neither looks at
how fields are resolved. A field is resolved to a text exactly if the bytes of its name are that
text in UTF-8. -/
namespace GlobalMap

theorem Bytes.utf8?_eq_some_iff {bytes : Bytes} {s : String} :
    bytes.utf8? = some s ↔ bytes = encoded s := by
  constructor
  · intro decoded
    unfold Bytes.utf8? String.fromUTF8? at decoded
    split at decoded
    · cases decoded
      rfl
    · cases decoded
  · rintro rfl
    exact utf8?_encoded s

namespace Coff

variable {bytes name field table : Bytes} {s : String} {fault : NameFault}

/-- Bytes start with a name: it holds no zero byte, and either nothing or a zero byte stands behind
it. -/
def StartsWith (bytes name : Bytes) : Prop :=
  0 ∉ name ∧ (bytes = name ∨ ∃ rest, bytes = name ++ 0 :: rest)

/-- The bytes of the name that a field gives, against a string table. -/
inductive NameBytes (field table : Bytes) : Bytes → Prop
  /-- The name stands in the field itself, whose first byte is not zero. -/
  | own {name : Bytes} (size : field.length = 8) (first : field[0]? ≠ some 0)
      (starts : StartsWith field name) : NameBytes field table name
  /-- The name stands in the table, at the place that the last four bytes of the field refer to. -/
  | referred {name : Bytes} (size : field.length = 8) (first : field[0]? = some 0)
      (inside : wordAt field 4 4 < table.length)
      (starts : StartsWith (table.drop (wordAt field 4 4)) name) : NameBytes field table name

/-- What keeps a field from having a name. -/
inductive Unnamed (field table : Bytes) : NameFault → Prop
  /-- The field has not the size of a name field. -/
  | size (wrong : field.length ≠ 8) : Unnamed field table (.fieldSize field.length)
  /-- The field refers to no place inside the table. -/
  | outside (size : field.length = 8) (first : field[0]? = some 0)
      (beyond : table.length ≤ wordAt field 4 4) :
      Unnamed field table (.outOfTable (wordAt field 4 4) table.length)
  /-- The bytes of its name are no text in UTF-8. -/
  | damaged {name : Bytes} (found : NameBytes field table name)
      (broken : ∀ s : String, name ≠ encoded s) : Unnamed field table (.notText name)

theorem untilZero_eq_iff : untilZero bytes = name ↔ StartsWith bytes name := by
  constructor
  · rintro rfl
    refine ⟨fun mem => ?_, ?_⟩
    · have nonzero := List.mem_takeWhile_imp mem
      cases nonzero
    · have whole := List.takeWhile_append_dropWhile (p := (· != (0 : UInt8))) (l := bytes)
      cases behind : bytes.dropWhile (· != 0) with
      | nil =>
        rw [behind, List.append_nil] at whole
        exact .inl whole.symm
      | cons b rest =>
        -- The first byte that is not taken is zero.
        have zero : (b != 0) = false := by
          have stop := List.head?_dropWhile_not (· != (0 : UInt8)) bytes
          rwa [behind] at stop
        rw [bne_eq_false_iff_eq] at zero
        rw [behind, zero] at whole
        exact .inr ⟨rest, whole.symm⟩
  · rintro ⟨plain, rfl | ⟨rest, rfl⟩⟩
    · have alone := untilZero_append plain []
      have nothing : untilZero [] = [] := rfl
      rwa [nothing, List.append_nil] at alone
    · have stop : untilZero (0 :: rest) = [] := rfl
      rw [untilZero_append plain, stop, List.append_nil]

theorem decodeName_eq_ok_iff : decodeName bytes = .ok s ↔ bytes = encoded s := by
  rw [← Bytes.utf8?_eq_some_iff, decodeName]
  cases bytes.utf8? <;> simp

theorem decodeName_eq_error_iff :
    decodeName bytes = .error fault ↔ fault = .notText bytes ∧ ∀ s, bytes ≠ encoded s := by
  have texts (s : String) : bytes.utf8? = some s ↔ bytes = encoded s := Bytes.utf8?_eq_some_iff
  rw [decodeName]
  cases decoded : bytes.utf8? with
  | none =>
    have broken (s : String) : bytes ≠ encoded s := fun same => by
      rw [(texts s).mpr same] at decoded
      cases decoded
    simp [broken, eq_comm]
  | some s =>
    refine iff_of_false (fun same => ?_) fun both => both.2 s ((texts s).mp decoded)
    cases same

/-! ## The three kinds of fields -/

theorem resolveName_of_size (wrong : field.length ≠ 8) :
    resolveName field table = .error (.fieldSize field.length) := by
  unfold resolveName
  split
  · exact absurd rfl wrong
  · rfl

theorem resolveName_of_own (size : field.length = 8) (first : field[0]? ≠ some 0) :
    resolveName field table = decodeName (untilZero field) := by
  match field, size with
  | [b0, _, _, _, _, _, _, _], _ =>
    have nonzero : b0 ≠ 0 := fun zero => first (congrArg some zero)
    exact if_pos nonzero

theorem resolveName_of_referred (size : field.length = 8) (first : field[0]? = some 0) :
    resolveName field table =
      if table.length ≤ wordAt field 4 4 then
        .error (.outOfTable (wordAt field 4 4) table.length)
      else decodeName (untilZero (table.drop (wordAt field 4 4))) := by
  match field, size with
  | [b0, _, _, _, _, _, _, _], _ =>
    cases Option.some.inj first
    rfl

/-- The name that a field gives has the bytes up to a zero byte, wherever it stands. -/
theorem resolveName_of_nameBytes (found : NameBytes field table name) :
    resolveName field table = decodeName name := by
  cases found with
  | own size first starts =>
    rw [resolveName_of_own size first, untilZero_eq_iff.mpr starts]
  | referred size first inside starts =>
    rw [resolveName_of_referred size first, if_neg (Nat.not_le.mpr inside),
      untilZero_eq_iff.mpr starts]

/-- A field has the wrong size, refers past the table, or gives the bytes of a name. -/
theorem size_or_outside_or_nameBytes (field table : Bytes) :
    field.length ≠ 8 ∨
      (field.length = 8 ∧ field[0]? = some 0 ∧ table.length ≤ wordAt field 4 4) ∨
      ∃ name, NameBytes field table name := by
  by_cases size : field.length = 8
  · by_cases first : field[0]? = some 0
    · by_cases beyond : table.length ≤ wordAt field 4 4
      · exact .inr (.inl ⟨size, first, beyond⟩)
      · exact .inr (.inr ⟨_, .referred size first (Nat.not_le.mp beyond)
          (untilZero_eq_iff.mp rfl)⟩)
    · exact .inr (.inr ⟨_, .own size first (untilZero_eq_iff.mp rfl)⟩)
  · exact .inl size

theorem resolveName_of_unnamed (unnamed : Unnamed field table fault) :
    resolveName field table = .error fault := by
  cases unnamed with
  | size wrong => exact resolveName_of_size wrong
  | outside size first beyond => rw [resolveName_of_referred size first, if_pos beyond]
  | damaged found broken =>
    rw [resolveName_of_nameBytes found]
    exact decodeName_eq_error_iff.mpr ⟨rfl, broken⟩

theorem resolveName_eq_ok_iff :
    resolveName field table = .ok s ↔ NameBytes field table (encoded s) := by
  constructor
  · intro resolved
    rcases size_or_outside_or_nameBytes field table with
      wrong | ⟨size, first, beyond⟩ | ⟨name, found⟩
    · rw [resolveName_of_size wrong] at resolved
      cases resolved
    · rw [resolveName_of_unnamed (.outside size first beyond)] at resolved
      cases resolved
    · rw [resolveName_of_nameBytes found] at resolved
      exact decodeName_eq_ok_iff.mp resolved ▸ found
  · intro found
    rw [resolveName_of_nameBytes found, decodeName_encoded]

theorem resolveName_eq_error_iff :
    resolveName field table = .error fault ↔ Unnamed field table fault := by
  refine ⟨fun refused => ?_, resolveName_of_unnamed⟩
  rcases size_or_outside_or_nameBytes field table with
    wrong | ⟨size, first, beyond⟩ | ⟨name, found⟩
  · rw [resolveName_of_size wrong] at refused
    cases refused
    exact .size wrong
  · rw [resolveName_of_unnamed (.outside size first beyond)] at refused
    cases refused
    exact .outside size first beyond
  · rw [resolveName_of_nameBytes found] at refused
    obtain ⟨rfl, broken⟩ := decodeName_eq_error_iff.mp refused
    exact .damaged found broken

/-! ## Fields that are written for a name -/

theorem startsWith_padded (plain : 0 ∉ name) (count : Nat) :
    StartsWith (name ++ List.replicate count 0) name := by
  refine ⟨plain, ?_⟩
  cases count with
  | zero => exact .inl (List.append_nil name)
  | succ count => exact .inr ⟨List.replicate count 0, rfl⟩

/-- A text that fits the field is named by the field that holds it. -/
theorem nameBytes_padded (named : s ≠ "") (plain : '\x00' ∉ s.toList)
    (short : (encoded s).length ≤ 8) (table : Bytes) :
    NameBytes (encoded s ++ List.replicate (8 - (encoded s).length) 0) table (encoded s) := by
  have bytes := zero_notMem_encoded plain
  refine .own ?_ ?_ (startsWith_padded bytes _)
  · rw [List.length_append, List.length_replicate]
    omega
  · obtain ⟨b, others, shape⟩ := List.exists_cons_of_ne_nil (encoded_ne_nil named)
    rw [shape, List.cons_append, List.getElem?_cons_zero]
    intro zero
    cases zero
    exact bytes (shape ▸ List.mem_cons_self)

/-- A text in a table is named by the field that refers to its place. -/
theorem nameBytes_referred {unused front : Bytes} (plain : '\x00' ∉ s.toList)
    (three : unused.length = 3) (storable : front.length < 0x100000000) (rest : Bytes) :
    NameBytes (0 :: unused ++ Bytes.ofNatLittle 4 front.length)
      (front ++ encoded s ++ 0 :: rest) (encoded s) := by
  have word : wordAt (0 :: unused ++ Bytes.ofNatLittle 4 front.length) 4 4 = front.length := by
    have four : (0 :: unused).length = 4 := by rw [List.length_cons, three]
    have width := Nat.le_of_eq (Bytes.length_ofNatLittle 4 front.length)
    rw [wordAt, List.drop_left' four, List.take_of_length_le width]
    exact Bytes.littleEndian_ofNatLittle storable
  refine .referred ?_ rfl ?_ ?_
  · rw [List.length_append, List.length_cons, three]
    rfl
  · rw [word]
    simp only [List.length_append, List.length_cons]
    omega
  · rw [word, List.append_assoc, List.drop_left]
    exact ⟨zero_notMem_encoded plain, .inr ⟨rest, rfl⟩⟩

/-- **Names are resolved exactly.** A field is resolved to the text that the bytes of its name
encode, and is refused for what keeps it from having a name. So a text is found again in the field
that holds it, with zero bytes up to the size of the field, and at the place in the table that a
field refers to. -/
theorem resolveName_exact :
    (∀ (field table : Bytes) (s : String),
      resolveName field table = .ok s ↔ NameBytes field table (encoded s)) ∧
    (∀ (field table : Bytes) (fault : NameFault),
      resolveName field table = .error fault ↔ Unnamed field table fault) ∧
    (∀ (s : String) (table : Bytes), s ≠ "" → '\x00' ∉ s.toList → (encoded s).length ≤ 8 →
      resolveName (encoded s ++ List.replicate (8 - (encoded s).length) 0) table = .ok s) ∧
    ∀ (unused front rest : Bytes) (s : String), unused.length = 3 → front.length < 0x100000000 →
      '\x00' ∉ s.toList →
      resolveName (0 :: unused ++ Bytes.ofNatLittle 4 front.length)
        (front ++ encoded s ++ 0 :: rest) = .ok s := by
  refine ⟨fun _ _ _ => resolveName_eq_ok_iff, fun _ _ _ => resolveName_eq_error_iff, ?_, ?_⟩
  · intro s table named plain short
    exact resolveName_eq_ok_iff.mpr (nameBytes_padded named plain short table)
  · intro unused front rest s three storable plain
    exact resolveName_eq_ok_iff.mpr (nameBytes_referred plain three storable rest)

/-- A name that fills its field to the last byte, and one that a field refers to inside a table. -/
theorem resolveName_exact_full :
    ("naïvety" ≠ "" ∧ '\x00' ∉ "naïvety".toList ∧ (encoded "naïvety").length ≤ 8 ∧
      resolveName (encoded "naïvety") [] = .ok "naïvety") ∧
    (([1, 2, 3] : Bytes).length = 3 ∧ ([9, 0] : Bytes).length < 0x100000000 ∧
      '\x00' ∉ "µ".toList ∧
      resolveName [0, 1, 2, 3, 2, 0, 0, 0] ([9, 0] ++ encoded "µ" ++ [0, 0x62]) = .ok "µ") :=
  ⟨⟨by decide, by decide, by decide +kernel,
      resolveName_exact.2.2.1 "naïvety" [] (by decide) (by decide) (by decide +kernel)⟩,
    ⟨rfl, by decide, by decide, resolveName_exact.2.2.2 [1, 2, 3] [9, 0] [0x62] "µ" rfl (by decide)
      (by decide)⟩⟩

end Coff

end GlobalMap
