import GlobalMap.MapFile.Projection
import GlobalMap.Proofs.OffsetMap
import GlobalMap.Proofs.TypeGraph.Chains
import GlobalMap.TypeGraph.Expansion

/-! What a type graph means as a map, said without resolving it. Each reference is
followed on its own through typedefs and qualifiers; no aliases are stored, no
name is replaced and no tree is kept. -/
namespace GlobalMap.TypeGraph

variable {graph : TypeGraph} {offset target : Int} {name : Option String}

/-- No offset stands for two kinds of type, and every structure is stored under
its own identity. -/
structure Separate (graph : TypeGraph) : Prop where
  typedef_base : ∀ offset ∈ graph.typedefs, offset ∉ graph.baseTypes
  typedef_structure : ∀ offset ∈ graph.typedefs, offset ∉ graph.structures
  typedef_qualifier : ∀ offset ∈ graph.typedefs, offset ∉ graph.qualifiers
  qualifier_base : ∀ offset ∈ graph.qualifiers, offset ∉ graph.baseTypes
  qualifier_structure : ∀ offset ∈ graph.qualifiers, offset ∉ graph.structures
  structure_base : ∀ offset ∈ graph.structures, offset ∉ graph.baseTypes
  own : ∀ (offset : Int) (s : Structure), graph.structures[offset]? = some s → s.identity = offset

theorem separate_iff : graph.Separate ↔
    (∀ offset ∈ graph.typedefs.keys, offset ∉ graph.baseTypes ∧ offset ∉ graph.structures ∧
      offset ∉ graph.qualifiers) ∧
    (∀ offset ∈ graph.qualifiers.keys, offset ∉ graph.baseTypes ∧ offset ∉ graph.structures) ∧
    (∀ row ∈ graph.structures.toList, row.1 ∉ graph.baseTypes ∧ row.2.identity = row.1) := by
  constructor
  · intro separate
    refine ⟨fun offset mem => ?_, fun offset mem => ?_, fun row mem => ?_⟩
    · have stored := Std.ExtTreeMap.mem_keys.mp mem
      exact ⟨separate.typedef_base _ stored, separate.typedef_structure _ stored,
        separate.typedef_qualifier _ stored⟩
    · have stored := Std.ExtTreeMap.mem_keys.mp mem
      exact ⟨separate.qualifier_base _ stored, separate.qualifier_structure _ stored⟩
    · have held := Std.ExtTreeMap.mem_toList_iff_getElem?_eq_some.mp mem
      have stored := OffsetMap.mem_of_lookup held
      exact ⟨separate.structure_base _ stored, separate.own _ _ held⟩
  · rintro ⟨typedefs, qualifiers, structures⟩
    refine ⟨fun o mem => ?_, fun o mem => ?_, fun o mem => ?_, fun o mem => ?_, fun o mem => ?_,
      fun o mem => ?_, fun o s held => ?_⟩
    · exact (typedefs o (Std.ExtTreeMap.mem_keys.mpr mem)).1
    · exact (typedefs o (Std.ExtTreeMap.mem_keys.mpr mem)).2.1
    · exact (typedefs o (Std.ExtTreeMap.mem_keys.mpr mem)).2.2
    · exact (qualifiers o (Std.ExtTreeMap.mem_keys.mpr mem)).1
    · exact (qualifiers o (Std.ExtTreeMap.mem_keys.mpr mem)).2
    · obtain ⟨s, held⟩ := OffsetMap.exists_lookup mem
      exact (structures (o, s) (Std.ExtTreeMap.mem_toList_iff_getElem?_eq_some.mpr held)).1
    · exact (structures (o, s) (Std.ExtTreeMap.mem_toList_iff_getElem?_eq_some.mpr held)).2

/-- Separateness can be checked row by row. -/
instance (graph : TypeGraph) : Decidable graph.Separate :=
  decidable_of_iff _ separate_iff.symm

/-- Links lead from an offset to a target. -/
def endsAt (graph : TypeGraph) (offset target : Int) : Bool :=
  match graph.follow offset with
  | .ends t _ => t == target
  | .loops _ => false

/-- The structure that a reference stands for, if it stands for one. -/
def structureAt? (graph : TypeGraph) (offset : Int) : Option Int :=
  match graph.follow offset with
  | .ends t _ => if t ∈ graph.structures then some t else none
  | .loops _ => none

/-- The name of the lowest typedef that leads to a structure, otherwise the
structure's own. Rows of typedefs are in ascending order of offsets. -/
def displayName (graph : TypeGraph) (target : Int) (s : Structure) : Option String :=
  match graph.typedefs.toList.find? fun row => graph.endsAt row.1 target with
  | some row => some row.2.name
  | none => s.name

/-- The display name of a qualified structure: that of the first typedef on the
way unless it is empty, otherwise that of the structure. -/
def qualifiedLabel (first display : Option String) : Option String :=
  match first with
  | some name => if name = "" then display else some name
  | none => display

/-- The display name of the type that a reference stands for. A typedef of a
structure has its own name; a base type keeps its name under every alias. -/
def label (graph : TypeGraph) (offset : Int) : Option String :=
  match graph.follow offset with
  | .loops _ => none
  | .ends target first =>
    match graph.structures[target]? with
    | none => graph.baseTypes[target]?
    | some s =>
      match graph.typedefs[offset]? with
      | some definition => some definition.name
      | none =>
        if offset ∈ graph.qualifiers then qualifiedLabel first (graph.displayName target s)
        else graph.displayName target s

/-- The entries below a structure that stands below a path. The types of members
are followed through typedefs and qualifiers, and a structure that is being
expanded is not expanded again. -/
def fieldsBelow (graph : TypeGraph) (path : List Int) (identity : Int) : List MapEntry :=
  if _fresh : identity ∈ path then []
  else
    match _held : graph.structures[identity]? with
    | none => []
    | some s =>
      s.members.map fun m => {
        name := some (Json.text m.name)
        type := (graph.label m.typeRef).map Json.text
        offset := some (.int m.offset)
        fields :=
          match graph.structureAt? m.typeRef with
          | none => []
          | some child => fieldsBelow graph (path ++ [identity]) child }
termination_by graph.structures.unvisited path
decreasing_by
  exact OffsetMap.unvisited_append_lt (OffsetMap.mem_of_lookup _held) _fresh

/-- The entry that a global variable stands for. -/
def meaning (graph : TypeGraph) (v : Variable) : MapEntry where
  name := some (Json.text v.name)
  addr := some (.int v.address)
  type := (graph.label v.typeRef).map Json.text
  fields :=
    match graph.structureAt? v.typeRef with
    | none => []
    | some target => graph.fieldsBelow [] target

theorem endsAt_iff : graph.endsAt offset target = true ↔
    ∃ name, graph.follow offset = .ends target name := by
  unfold endsAt
  cases followed : graph.follow offset with
  | ends t name => simp
  | loops passed => simp

theorem endsAt_unique {target' : Int} (first : graph.endsAt offset target = true)
    (second : graph.endsAt offset target' = true) : target = target' := by
  obtain ⟨_, ends⟩ := endsAt_iff.mp first
  obtain ⟨_, ends'⟩ := endsAt_iff.mp second
  rw [ends] at ends'
  cases ends'
  rfl

theorem structureAt?_eq_some_iff : graph.structureAt? offset = some target ↔
    target ∈ graph.structures ∧ graph.endsAt offset target = true := by
  unfold structureAt? endsAt
  cases followed : graph.follow offset with
  | ends t name =>
    by_cases stored : t ∈ graph.structures
    · simp only [stored, if_true, Option.some.injEq, beq_iff_eq]
      constructor
      · rintro rfl
        exact ⟨stored, rfl⟩
      · exact And.right
    · simp only [stored, if_false, reduceCtorEq, beq_iff_eq, false_iff]
      rintro ⟨held, rfl⟩
      exact stored held
  | loops passed => simp

theorem link_of_typedef {definition : TypeDefinition}
    (held : graph.typedefs[offset]? = some definition) :
    graph.link? offset = some ⟨some definition.name, definition.target⟩ := by
  simp only [link?, held]

theorem link_eq_none_iff : graph.link? offset = none ↔
    graph.typedefs[offset]? = none ∧ graph.qualifiers[offset]? = none := by
  unfold link?
  cases graph.typedefs[offset]? with
  | some definition => simp
  | none => simp

theorem unlinked_iff : graph.link? offset = none ↔
    ¬ (offset ∈ graph.typedefs ∨ offset ∈ graph.qualifiers) := by
  rw [link_eq_none_iff, not_or]
  constructor
  · exact fun ⟨untyped, unqualified⟩ =>
      ⟨OffsetMap.not_mem_of_lookup untyped, OffsetMap.not_mem_of_lookup unqualified⟩
  · exact fun ⟨untyped, unqualified⟩ =>
      ⟨Std.ExtTreeMap.getElem?_eq_none untyped, Std.ExtTreeMap.getElem?_eq_none unqualified⟩

/-- A typedef ends where its target does, under its own name. -/
theorem follow_typedef_iff {definition : TypeDefinition}
    (held : graph.typedefs[offset]? = some definition) :
    graph.follow offset = .ends target name ↔
      graph.endsAt definition.target target = true ∧ name = some definition.name := by
  rw [follow_link_iff (link_of_typedef held), endsAt_iff]
  simp only [Option.some_or, exists_and_right]

end GlobalMap.TypeGraph
