import GlobalMap.Proofs.DebugInfo.Walked
import GlobalMap.Proofs.OffsetMap

/-! The graph that files add up to is made of what the reached entries of all their
units give, and of nothing else. An attribute that cannot be read costs the entry
that it belongs to, and the walk goes on behind it. -/
namespace GlobalMap

namespace DebugUnit

/-- What the reached entries of a unit give, in order. -/
def records (u : DebugUnit) : List Finding :=
  match u.top with
  | .ok e => e.records u.encoding
  | .error _ => []

/-- Nothing in the encoding of a unit is damaged, whatever its attributes are. -/
def Undamaged (u : DebugUnit) : Prop :=
  match u.top with
  | .ok e => ∀ p ∈ e.placed [], p.entry.Undamaged
  | .error _ => False

instance (u : DebugUnit) : Decidable u.Undamaged :=
  match h : u.top with
  | .ok e => decidable_of_iff (∀ p ∈ e.placed [], p.entry.Undamaged) (by rw [Undamaged, h])
  | .error _ => isFalse (by rw [Undamaged, h]; exact id)

theorem trail_yields (u : DebugUnit) (undamaged : u.Undamaged) : u.trail.Yields u.records := by
  unfold Undamaged at undamaged
  unfold DebugUnit.trail records
  cases top : u.top with
  | error damage =>
    rw [top] at undamaged
    cases undamaged
  | ok e =>
    rw [top] at undamaged
    exact Entry.trail_yields u.encoding e [] undamaged (fun a mem => by cases mem)

end DebugUnit

namespace DebugInfo

/-- What the reached entries of a file give, in order. -/
def records (info : DebugInfo) : List Finding :=
  info.units.flatMap DebugUnit.records

/-- Nothing in the encoding of a file is damaged. -/
def Undamaged (info : DebugInfo) : Prop :=
  info.failure = none ∧ ∀ u ∈ info.units, u.Undamaged

instance (info : DebugInfo) : Decidable info.Undamaged :=
  inferInstanceAs (Decidable (_ ∧ _))

end DebugInfo

/-- A graph is what some records say: under every offset the last one of its kind,
and all variables in order. -/
structure TypeGraph.Gathers (graph : TypeGraph) (records : List Finding) : Prop where
  baseTypes : ∀ offset : Int,
    graph.baseTypes[offset]? = OffsetMap.lastAt (records.filterMap Finding.baseType?) offset
  typedefs : ∀ offset : Int,
    graph.typedefs[offset]? = OffsetMap.lastAt (records.filterMap Finding.typeDefinition?) offset
  structures : ∀ offset : Int,
    graph.structures[offset]? = OffsetMap.lastAt (records.filterMap Finding.structure?) offset
  qualifiers : ∀ offset : Int,
    graph.qualifiers[offset]? = OffsetMap.lastAt (records.filterMap Finding.qualifier?) offset
  globals : graph.globals = records.filterMap Finding.global?

/-- What a walk finds of a kind of record is what its records have of it. -/
theorem Trail.Yields.filterMap {α : Type} {trail : Trail} {found : List Finding}
    {pick : Finding → Option α} (yields : trail.Yields found)
    (picks : ∀ finding, finding.isRecord = false → pick finding = none) :
    trail.findings.filterMap pick = found.filterMap pick := by
  rw [← yields.records, List.filterMap_filter]
  congr 1
  funext finding
  cases kind : finding.isRecord with
  | true => rfl
  | false => rw [picks finding kind]; rfl

/-- Rows of a kind of record that a walk finds are stored behind those before. -/
theorem Trail.Yields.insertMany {α : Type} {trail : Trail} {records found : List Finding}
    {pick : Finding → Option (Int × α)} {m : OffsetMap α} (yields : trail.Yields found)
    (picks : ∀ finding, finding.isRecord = false → pick finding = none)
    (before : ∀ offset : Int, m[offset]? = OffsetMap.lastAt (records.filterMap pick) offset)
    (offset : Int) :
    (m.insertMany (trail.findings.filterMap pick))[offset]? =
      OffsetMap.lastAt ((records ++ found).filterMap pick) offset := by
  rw [OffsetMap.getElem?_insertMany, before offset, List.filterMap_append, OffsetMap.lastAt_append,
    yields.filterMap picks]

namespace Survey

theorem gathers_empty : ({} : Survey).graph.Gathers [] where
  baseTypes := fun _ => Std.ExtTreeMap.getElem?_empty
  typedefs := fun _ => Std.ExtTreeMap.getElem?_empty
  structures := fun _ => Std.ExtTreeMap.getElem?_empty
  qualifiers := fun _ => Std.ExtTreeMap.getElem?_empty
  globals := rfl

/-- A walk adds the records that it yields. -/
theorem addTrail_gathers {s : Survey} {trail : Trail} {records found : List Finding}
    (before : s.graph.Gathers records) (yields : trail.Yields found) :
    (s.addTrail trail).graph.Gathers (records ++ found) where
  baseTypes := yields.insertMany (fun finding _ => by cases finding <;> trivial) before.baseTypes
  typedefs := yields.insertMany (fun finding _ => by cases finding <;> trivial) before.typedefs
  structures :=
    yields.insertMany (fun finding _ => by cases finding <;> trivial) before.structures
  qualifiers :=
    yields.insertMany (fun finding _ => by cases finding <;> trivial) before.qualifiers
  globals := by
    have kept : trail.findings.filterMap Finding.global? = found.filterMap Finding.global? :=
      yields.filterMap fun finding _ => by cases finding <;> trivial
    rw [List.filterMap_append, ← kept, ← before.globals]
    rfl

/-- Adds files one after the other, up to the first that is not walked to its end. -/
def addAll (s : Survey) : List DebugInfo → Survey × Option Hindrance
  | [] => (s, none)
  | info :: rest =>
    let (after, hindrance) := s.add info
    match hindrance with
    | some hindrance => (after, some hindrance)
    | none => addAll after rest

theorem addUnits_gathers {s : Survey} {records : List Finding} (units : List DebugUnit)
    (undamaged : ∀ u ∈ units, u.Undamaged) (before : s.graph.Gathers records) :
    (s.addUnits units).2 = none ∧
      (s.addUnits units).1.graph.Gathers (records ++ units.flatMap DebugUnit.records) := by
  induction units generalizing s records with
  | nil => exact ⟨rfl, by rwa [List.flatMap_nil, List.append_nil]⟩
  | cons u rest ih =>
    have yields := u.trail_yields (undamaged u List.mem_cons_self)
    have next := ih (fun other mem => undamaged other (List.mem_cons_of_mem _ mem))
      (addTrail_gathers before yields)
    simp only [addUnits, yields.failure]
    rwa [List.flatMap_cons, ← List.append_assoc]

theorem add_gathers {s : Survey} {records : List Finding} (info : DebugInfo)
    (undamaged : info.Undamaged) (before : s.graph.Gathers records) :
    (s.add info).2 = none ∧ (s.add info).1.graph.Gathers (records ++ info.records) := by
  obtain ⟨complete, units⟩ := undamaged
  obtain ⟨none, gathered⟩ := addUnits_gathers info.units units before
  unfold add
  exact ⟨by simp only [none, complete, Option.map_none, Option.or_none], gathered⟩

theorem addAll_gathers_from {s : Survey} {records : List Finding} (sources : List DebugInfo)
    (undamaged : ∀ info ∈ sources, info.Undamaged) (before : s.graph.Gathers records) :
    (s.addAll sources).2 = none ∧
      (s.addAll sources).1.graph.Gathers (records ++ sources.flatMap DebugInfo.records) := by
  induction sources generalizing s records with
  | nil => exact ⟨rfl, by rwa [List.flatMap_nil, List.append_nil]⟩
  | cons info rest ih =>
    obtain ⟨none, gathered⟩ := add_gathers info (undamaged info List.mem_cons_self) before
    have next := ih (fun other mem => undamaged other (List.mem_cons_of_mem _ mem)) gathered
    simp only [addAll, none]
    rwa [List.flatMap_cons, ← List.append_assoc]

/-- **A survey gathers what is reached.** Files that are not damaged are walked to
their end, and the graph is exactly what their reached entries give. -/
theorem addAll_gathers (sources : List DebugInfo)
    (undamaged : ∀ info ∈ sources, info.Undamaged) :
    (addAll {} sources).2 = none ∧
      (addAll {} sources).1.graph.Gathers (sources.flatMap DebugInfo.records) :=
  addAll_gathers_from sources undamaged gathers_empty

/-- A unit with a structure, one member of which has no readable type, and a
variable that is named where it is declared. -/
def pointUnit : DebugUnit where
  top := .ok {
    tag := "DW_TAG_compile_unit"
    offset := 11
    children := [
      { tag := "DW_TAG_base_type", offset := 20, name := .value "int" },
      { tag := "DW_TAG_structure_type", offset := 30, name := .value "point", children := [
          { tag := "DW_TAG_member", offset := 40, name := .value "x", typeRef := .value 20,
            memberLocation := .value (.program [0x23, 4]) },
          { tag := "DW_TAG_member", offset := 50, name := .value "y",
            typeRef := .unreadable "type in form 0x20", memberLocation := .value (.constant 8) }] },
      { tag := "DW_TAG_variable", offset := 60, location := .value (.program [0x03, 0, 1, 0, 0]),
        specification :=
          .value (.ok { offset := 70, name := .value "origin", typeRef := .value 30 }) }] }

theorem addAll_gathers_point :
    (∀ info ∈ [DebugInfo.mk [pointUnit] none], info.Undamaged) ∧
      (addAll {} [⟨[pointUnit], none⟩]).2 = none ∧
      (addAll {} [⟨[pointUnit], none⟩]).1.graph.Gathers
        ([DebugInfo.mk [pointUnit] none].flatMap DebugInfo.records) :=
  ⟨by decide, addAll_gathers [⟨[pointUnit], none⟩] (by decide)⟩

end Survey

end GlobalMap
