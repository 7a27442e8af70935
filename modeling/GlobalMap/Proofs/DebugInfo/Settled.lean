import GlobalMap.Proofs.DebugInfo.Conservation

/-! When nothing is left out. An entry is settled in a graph if the graph holds what the entry
gives, or if the entry is one of those that give nothing to anyone; a structure is settled with its
members. A survey leaves nothing out if and only if every reached entry is settled in its graph. -/
namespace GlobalMap

open Entry (Placed)

/-- A graph holds a record. -/
def TypeGraph.Holds (graph : TypeGraph) : Finding → Prop
  | .baseType offset name => graph.baseTypes[offset]? = some name
  | .typeDefinition offset definition => graph.typedefs[offset]? = some definition
  | .qualifier offset target => graph.qualifiers[offset]? = some target
  | .aggregate s => graph.structures[s.identity]? = some s
  | .global v => v ∈ graph.globals
  | .visited | .omitted _ => False

namespace Site

/-- What an entry gives is in a graph. -/
def Recorded (x : Site) (graph : TypeGraph) : Prop :=
  ∃ f, x.record? = some f ∧ graph.Holds f

/-- A structure is in a graph, and each of its members in it. -/
def RecordedWhole (x : Site) (graph : TypeGraph) : Prop :=
  ∃ s, graph.structures[x.entry.offset]? = some s ∧
    ∀ child ∈ x.entry.children, child.role = .member →
      ∃ m ∈ s.members, child.memberOf? x.encoding = some m

/-- Nothing is missing of an entry in a graph. -/
def Settled (x : Site) (graph : TypeGraph) : Prop :=
  match x.entry.role with
  | .baseType | .typeDefinition => x.Recorded graph
  | .qualifier => x.entry.typeRef = .absent ∨ x.Recorded graph
  | .variable => 1 < x.placed.level ∨ x.entry.DeclaredElsewhere ∨ x.Recorded graph
  | .aggregate => x.RecordedWhole graph
  | .member | .other => True

theorem settled_of_plain {x : Site} (graph : TypeGraph) (plain : x.entry.role ≠ .aggregate) :
    x.Settled graph ↔ (x.placed.Due → x.Recorded graph) := by
  unfold Settled
  cases kind : x.entry.role with
  | baseType => exact ⟨fun held _ => held, fun held => held (.inl kind)⟩
  | typeDefinition => exact ⟨fun held _ => held, fun held => held (.inr (.inl kind))⟩
  | qualifier =>
    rw [Placed.due_iff_of_qualifier kind]
    exact Decidable.or_iff_not_imp_left
  | aggregate => exact absurd kind plain
  | «variable» =>
    rw [Placed.due_iff_of_variable kind, and_imp, ← Nat.not_lt]
    change 1 < x.placed.level ∨ x.entry.DeclaredElsewhere ∨ x.Recorded graph ↔ _
    rw [Decidable.or_iff_not_imp_left, Decidable.or_iff_not_imp_left]
    rfl
  | member | other =>
    have idle : ¬ x.placed.Due := by
      rw [entry] at kind
      simp [Placed.Due, kind]
    exact ⟨fun _ due => absurd due idle, fun _ => trivial⟩

/-- Nothing is left out at an entry that is no structure if what it gives is there, where it is
due. -/
theorem omissions_of_plain {x : Site} (intact : x.Intact) (plain : x.entry.role ≠ .aggregate) :
    x.findings.filterMap Finding.omission? = [] ↔ (x.placed.Due → x.record?.isSome) := by
  unfold findings record?
  rcases x.placed.fate intact plain with
    ⟨f, due, given, found⟩ | ⟨kind, reason, due, _, nothing, found⟩ | ⟨idle, _, found⟩
  · rw [found, given]
    cases Placed.mayGive_of_record? given <;> exact ⟨fun _ _ => rfl, fun _ => rfl⟩
  · rw [found, nothing]
    simp [Finding.omission?, Entry.leaveOut, List.filterMap_cons, due]
  · rw [found]
    simp [Finding.omission?, idle]

/-- Nothing is left out of a structure if every child that is a member makes one. -/
theorem omissions_of_aggregate {x : Site} (intact : x.Intact) (whole : x.entry.role = .aggregate) :
    x.findings.filterMap Finding.omission? = [] ↔
      ∀ child ∈ x.entry.children, child.role = .member →
        ∃ m, child.memberOf? x.encoding = some m := by
  obtain ⟨s, _, _, _, found⟩ := x.placed.findings_of_aggregate intact whole
  have each (child : Entry) :
      (child.findChild x.encoding).filterMap Finding.omission? = [] ↔
        (child.role = .member → ∃ m, child.memberOf? x.encoding = some m) := by
    rcases child.childCase x.encoding with
      ⟨plain, nothing, found⟩ | ⟨m, kind, given, found⟩ | ⟨reason, kind, nothing, found⟩
    · rw [found]
      simp [Finding.omission?, plain]
    · rw [found, given]
      simp [Finding.omission?]
    · rw [found, nothing]
      simp [Finding.omission?, Entry.leaveOut, List.filterMap_cons, kind]
  unfold findings
  rw [found]
  simp only [List.filterMap_cons, Finding.omission?, List.filterMap_append, List.filterMap_nil,
    List.append_nil, List.filterMap_flatMap, List.flatMap_eq_nil_iff, each]
  rfl

end Site

namespace Survey

variable {s : Survey} {sites : List Site} {units : Nat}

/-- What a reached entry gives is in the graph. -/
theorem Covers.holds (covers : Covers {} s sites units)
    (distinct : (sites.map fun x => x.entry.offset).Nodup) {x : Site}
    (mem : x ∈ sites) {f : Finding} (given : x.record? = some f) :
    s.graph.Holds f := by
  rw [covers.graph_eq]
  have intact := covers.intact
  cases Placed.mayGive_of_record? given with
  | baseType name =>
    exact Finding.table_baseType.getElem?_of_record? intact distinct mem given rfl
  | typeDefinition definition =>
    exact Finding.table_typeDefinition.getElem?_of_record? intact distinct mem given rfl
  | qualifier target =>
    exact Finding.table_qualifier.getElem?_of_record? intact distinct mem given rfl
  | aggregate s =>
    exact Finding.table_structure.getElem?_of_record? intact distinct mem given rfl
  | global v =>
    have found : Finding.global v ∈ sites.flatMap Site.findings :=
      List.mem_flatMap.mpr ⟨x, mem, Site.mem_findings (intact x mem) given⟩
    exact List.mem_append_right _ (List.mem_filterMap.mpr ⟨_, found, rfl⟩)

/-- **Nothing is left out if and only if everything is there.** -/
theorem Covers.omissions_eq_nil_iff (covers : Covers {} s sites units)
    (distinct : (sites.map fun x => x.entry.offset).Nodup) :
    s.omissions = [] ↔ ∀ x ∈ sites, x.Settled s.graph := by
  have omitted : s.omissions =
      (sites.flatMap Site.findings).filterMap Finding.omission? := by
    rw [covers.after_eq]
    rfl
  rw [omitted, List.filterMap_flatMap, List.flatMap_eq_nil_iff]
  refine forall₂_congr fun x mem => ?_
  have intact := covers.intact x mem
  by_cases whole : x.entry.role = .aggregate
  · obtain ⟨stored, given, identity, members, _⟩ := x.placed.findings_of_aggregate intact whole
    have held : s.graph.structures[x.entry.offset]? = some stored :=
      identity ▸ covers.holds distinct mem given
    rw [Site.omissions_of_aggregate intact whole, Site.Settled, whole]
    constructor
    · intro complete
      refine ⟨stored, held, fun child isChild kind => ?_⟩
      obtain ⟨m, made⟩ := complete child isChild kind
      exact ⟨m, members ▸ List.mem_filterMap.mpr ⟨child, isChild, made⟩, made⟩
    · rintro ⟨_, _, complete⟩ child isChild kind
      obtain ⟨m, _, made⟩ := complete child isChild kind
      exact ⟨m, made⟩
  · rw [Site.omissions_of_plain intact whole, Site.settled_of_plain s.graph whole]
    refine imp_congr_right fun _ => ?_
    rw [Option.isSome_iff_exists]
    exact ⟨fun ⟨f, given⟩ => ⟨f, given, covers.holds distinct mem given⟩,
      fun ⟨f, given, _⟩ => ⟨f, given⟩⟩

end Survey

end GlobalMap
