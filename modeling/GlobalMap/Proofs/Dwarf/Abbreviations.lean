import GlobalMap.Proofs.Dwarf.Layout

/-! A table of abbreviations is read row by row, and every kind of entry is found under its code. -/
namespace GlobalMap.Dwarf

/-- An attribute that can be declared: it is not the pair of zeros that ends a declaration, and its
value stands with the entries. -/
def AttributeSpec.Plain (spec : AttributeSpec) : Prop :=
  spec.name ≠ 0 ∧ spec.form ≠ implicitConstantForm ∧ spec.constant = none

instance : DecidablePred AttributeSpec.Plain :=
  fun _ => inferInstanceAs (Decidable (_ ∧ _ ∧ _))

theorem scanAttribute_bytes {spec : AttributeSpec} (plain : spec.Plain) (rest : Bytes) :
    scanAttribute (spec.bytes ++ rest) = some (spec, rest) := by
  obtain ⟨name, form, constant⟩ := spec
  obtain ⟨_, outside, none⟩ := plain
  change constant = Option.none at none
  change form ≠ implicitConstantForm at outside
  simp only [scanAttribute, AttributeSpec.bytes, List.append_assoc, uleb_append,
    Option.bind_eq_bind, Option.bind_some, if_neg outside, none, Option.pure_def]

theorem scanAttributes_of {bytes rest : Bytes} {spec : AttributeSpec}
    (first : scanAttribute bytes = some (spec, rest)) :
    scanAttributes bytes =
      if spec.name = 0 ∧ spec.form = 0 then some ([], rest)
      else (scanAttributes rest).map fun (specs, rest) => (spec :: specs, rest) := by
  rw [scanAttributes]
  split
  · next failed =>
    rw [first] at failed
    cases failed
  · next found =>
    rw [first] at found
    cases found
    rfl

/-- Declared attributes are read up to the pair of zeros behind them. -/
theorem scanAttributes_bytes {specs : List AttributeSpec} (plain : ∀ spec ∈ specs, spec.Plain)
    (rest : Bytes) :
    scanAttributes (specs.flatMap AttributeSpec.bytes ++ ([0, 0] ++ rest)) =
      some (specs, rest) := by
  induction specs with
  | nil =>
    have zeros : scanAttribute ([0, 0] ++ rest) = some (⟨0, 0, none⟩, rest) := rfl
    rw [List.flatMap_nil, List.nil_append, scanAttributes_of zeros]
    rfl
  | cons spec specs ih =>
    obtain ⟨here, others⟩ := List.forall_mem_cons.mp plain
    have first := scanAttribute_bytes here (specs.flatMap AttributeSpec.bytes ++ ([0, 0] ++ rest))
    rw [List.flatMap_cons, List.append_assoc, scanAttributes_of first,
      if_neg fun zero => here.1 zero.1, ih others, Option.map_some]

theorem scanAbbreviation_bytes {a : Abbreviation} (plain : ∀ spec ∈ a.attributes, spec.Plain)
    (rest : Bytes) : scanAbbreviation (a.bytes ++ rest) = some (a, rest) := by
  have flag : childrenFlag? a.hasChildren.toNat = some a.hasChildren := by
    cases a.hasChildren <;> rfl
  have small : a.hasChildren.toNat < Nat.pow 256 1 := by
    cases a.hasChildren <;> decide
  simp only [scanAbbreviation, Abbreviation.bytes, List.append_assoc, uleb_append,
    Option.bind_eq_bind, Option.bind_some, word_append small, flag, scanAttributes_bytes plain,
    Option.pure_def]

/-- A row of a table that can be declared. -/
def Declarable (row : Nat × Abbreviation) : Prop :=
  row.1 ≠ 0 ∧ ∀ spec ∈ row.2.attributes, spec.Plain

instance : DecidablePred Declarable :=
  fun _ => inferInstanceAs (Decidable (_ ∧ _))

theorem declarationBytes_cons (row : Nat × Abbreviation) (rows : List (Nat × Abbreviation)) :
    declarationBytes (row :: rows) =
      ulebBytes row.1 ++ (row.2.bytes ++ declarationBytes rows) := by
  simp only [declarationBytes, List.flatMap_cons, List.append_assoc]

theorem readDeclarations_zero {bytes rest : Bytes} (zero : uleb bytes = some (0, rest))
    (table : AbbreviationTable) : readDeclarations table bytes = some table := by
  rw [readDeclarations]
  split
  · next failed =>
    rw [zero] at failed
    cases failed
  · rfl
  · next nonzero found =>
    rw [zero] at found
    cases found
    exact (nonzero rfl).elim

theorem readDeclarations_of {bytes behind rest : Bytes} {code : Nat} {a : Abbreviation}
    (nonzero : code ≠ 0) (first : uleb bytes = some (code, behind))
    (second : scanAbbreviation behind = some (a, rest)) (table : AbbreviationTable) :
    readDeclarations table bytes = readDeclarations (table.insert code a) rest := by
  rw [readDeclarations]
  split
  · next failed =>
    rw [first] at failed
    cases failed
  · next found =>
    rw [first] at found
    cases found
    exact absurd rfl nonzero
  · next found =>
    rw [first] at found
    cases found
    split
    · next failed =>
      rw [second] at failed
      cases failed
    · next found =>
      rw [second] at found
      cases found
      rfl

/-- A table is read row by row, up to the zero behind the last. -/
theorem readDeclarations_bytes {rows : List (Nat × Abbreviation)}
    (declarable : ∀ row ∈ rows, Declarable row) (table : AbbreviationTable) :
    readDeclarations table (declarationBytes rows) = some (table.insertMany rows) := by
  induction rows generalizing table with
  | nil =>
    have zero : uleb (declarationBytes []) = some (0, []) := rfl
    rw [readDeclarations_zero zero, Std.ExtTreeMap.insertMany_nil]
  | cons row rows ih =>
    obtain ⟨here, others⟩ := List.forall_mem_cons.mp declarable
    have first := uleb_append row.1 (row.2.bytes ++ declarationBytes rows)
    have second := scanAbbreviation_bytes here.2 (declarationBytes rows)
    rw [declarationBytes_cons, readDeclarations_of here.1 first second, ih others,
      Std.ExtTreeMap.insertMany_cons]

/-- The table of all kinds. -/
def kindTable : AbbreviationTable :=
  (∅ : AbbreviationTable).insertMany (Kind.all.map Kind.row)

theorem Kind.mem_all (kind : Kind) : kind ∈ all := by
  cases kind <;> decide

theorem Kind.declarable_row (kind : Kind) : Declarable kind.row := by
  cases kind <;> decide

theorem read_abbreviationBytes : AbbreviationTable.read abbreviationBytes = some kindTable := by
  refine readDeclarations_bytes (fun row mem => ?_) ∅
  obtain ⟨kind, _, rfl⟩ := List.mem_map.mp mem
  exact kind.declarable_row

example : abbreviationBytes = [
    1, 0x11, 1, 0x03, 0x08, 0, 0,
    2, 0x24, 0, 0x03, 0x08, 0x3e, 0x0b, 0x0b, 0x0b, 0, 0,
    3, 0x13, 1, 0x03, 0x08, 0x0b, 0x0b, 0, 0,
    4, 0x0d, 0, 0x03, 0x08, 0x49, 0x13, 0x38, 0x0b, 0, 0,
    5, 0x34, 0, 0x03, 0x08, 0x49, 0x13, 0x3f, 0x19, 0x02, 0x18, 0, 0,
    6, 0x16, 0, 0x03, 0x08, 0x49, 0x13, 0, 0,
    7, 0x0d, 0, 0x03, 0x08, 0x49, 0x13, 0x38, 0x18, 0, 0,
    0] := by
  decide +kernel

/-- Every kind is found under its code. -/
theorem getElem?_kindTable (kind : Kind) : kindTable[kind.code]? = some kind.abbreviation := by
  have row : (kind.code, kind.abbreviation) ∈ Kind.all.map Kind.row :=
    List.mem_map_of_mem kind.mem_all
  have distinct : (Kind.all.map Kind.row).Pairwise fun a b => ¬ compare a.1 b.1 = .eq := by
    decide
  exact Std.ExtTreeMap.getElem?_insertMany_list_of_mem Std.ReflCmp.compare_self distinct row

end GlobalMap.Dwarf
