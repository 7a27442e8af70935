import GlobalMap.Dwarf.Scan
import Std.Data.ExtTreeMap
/-!
Abbreviation tables: for each code that entries use, their tag, whether they have children, and the
attributes that follow the code, each with its form.

A table is a sequence of declarations that ends with a zero code. Where a code is declared more than
once the last declaration counts.
-/
namespace GlobalMap.Dwarf

/-- An attribute as an abbreviation declares it. -/
structure AttributeSpec where
  name : Nat
  form : Nat
  /-- The value of the attribute, if it stands here. -/
  constant : Option Int := none
  deriving DecidableEq, Repr

/-- What the code of an entry stands for. -/
structure Abbreviation where
  tag : Nat
  hasChildren : Bool
  attributes : List AttributeSpec
  deriving DecidableEq, Repr

/-- The form whose values stand in the table itself. -/
def implicitConstantForm : Nat := 0x21

/-- One declared attribute. -/
def scanAttribute : Scan AttributeSpec := fun bytes => do
  let (name, rest) ← uleb bytes
  let (form, rest) ← uleb rest
  if form = implicitConstantForm then
    let (constant, rest) ← sleb rest
    return (⟨name, form, some constant⟩, rest)
  else
    return (⟨name, form, none⟩, rest)

theorem scanAttribute_length {spec : AttributeSpec} {bytes rest : Bytes}
    (h : scanAttribute bytes = some (spec, rest)) : rest.length < bytes.length := by
  simp only [scanAttribute, Option.bind_eq_bind, Option.bind_eq_some_iff, Prod.exists] at h
  obtain ⟨_, _, hn, _, _, hf, h⟩ := h
  have := uleb_length hn
  have := uleb_length hf
  split at h
  · simp only [Option.bind_eq_some_iff, Prod.exists, Option.pure_def, Option.some.injEq,
      Prod.mk.injEq] at h
    obtain ⟨_, _, hs, _, rfl⟩ := h
    have := sleb_length hs
    omega
  · simp only [Option.pure_def, Option.some.injEq, Prod.mk.injEq] at h
    obtain ⟨_, rfl⟩ := h
    omega

/-- The declared attributes up to the pair of zeros behind them. -/
def scanAttributes (bytes : Bytes) : Option (List AttributeSpec × Bytes) :=
  match _h : scanAttribute bytes with
  | none => none
  | some (spec, rest) =>
    if spec.name = 0 ∧ spec.form = 0 then some ([], rest)
    else (scanAttributes rest).map fun (specs, rest) => (spec :: specs, rest)
termination_by bytes.length
decreasing_by exact scanAttribute_length _h

theorem scanAttributes_length {specs : List AttributeSpec} {bytes rest : Bytes}
    (h : scanAttributes bytes = some (specs, rest)) : rest.length < bytes.length := by
  fun_induction scanAttributes bytes generalizing specs rest with
  | case1 => simp at h
  | case2 bytes spec rest' held _ =>
    simp only [Option.some.injEq, Prod.mk.injEq] at h
    obtain ⟨_, rfl⟩ := h
    exact scanAttribute_length held
  | case3 bytes spec rest' held _ ih =>
    simp only [Option.map_eq_some_iff, Prod.exists, Prod.mk.injEq] at h
    obtain ⟨_, _, hs, _, rfl⟩ := h
    exact Nat.lt_trans (ih hs) (scanAttribute_length held)

/-- Whether entries have children: zero for no, one for yes. -/
def childrenFlag? : Nat → Option Bool
  | 0 => some false
  | 1 => some true
  | _ => none

/-- What stands behind the code of a declaration. -/
def scanAbbreviation : Scan Abbreviation := fun bytes => do
  let (tag, rest) ← uleb bytes
  let (children, rest) ← word .little 1 rest
  let hasChildren ← childrenFlag? children
  let (attributes, rest) ← scanAttributes rest
  return (⟨tag, hasChildren, attributes⟩, rest)

theorem scanAbbreviation_length {a : Abbreviation} {bytes rest : Bytes}
    (h : scanAbbreviation bytes = some (a, rest)) : rest.length < bytes.length := by
  simp only [scanAbbreviation, Option.bind_eq_bind, Option.bind_eq_some_iff, Prod.exists,
    Option.pure_def, Option.some.injEq, Prod.mk.injEq] at h
  obtain ⟨_, _, ht, _, _, hc, _, _, _, _, ha, _, rfl⟩ := h
  have := uleb_length ht
  have := word_length hc
  have := scanAttributes_length ha
  omega

/-- A table of abbreviations by their codes. -/
abbrev AbbreviationTable := Std.ExtTreeMap Nat Abbreviation

/-- Reads declarations into a table, up to the zero code behind them. -/
def readDeclarations (table : AbbreviationTable) (bytes : Bytes) : Option AbbreviationTable :=
  match _hc : uleb bytes with
  | none => none
  | some (0, _) => some table
  | some (code, rest) =>
    match _ha : scanAbbreviation rest with
    | none => none
    | some (abbreviation, rest) => readDeclarations (table.insert code abbreviation) rest
termination_by bytes.length
decreasing_by exact Nat.lt_trans (scanAbbreviation_length _ha) (uleb_length _hc)

/-- The table that a byte string starts with. -/
def AbbreviationTable.read (bytes : Bytes) : Option AbbreviationTable :=
  readDeclarations ∅ bytes

end GlobalMap.Dwarf
