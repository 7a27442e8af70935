import GlobalMap.Proofs.TypeGraph.Resolution

/-! Resolving a graph that is resolved already changes nothing. The first time leaves
typedefs and qualifiers where they are and stores structures at them that are not
their own, so the second time meets a graph of another shape. But what is to stand at
an offset in the end depends on the links and on what the ends of chains hold, and
there the first time has changed nothing but names, to names that stay. -/
namespace GlobalMap.TypeGraph

variable {graph : TypeGraph} {offset target : Int} {name : Option String}

/-- Every structure is stored under its own identity. The kinds of types may share
offsets. -/
def Own (graph : TypeGraph) : Prop :=
  ∀ (offset : Int) (s : Structure), graph.structures[offset]? = some s → s.identity = offset

theorem own_iff : graph.Own ↔ ∀ row ∈ graph.structures.toList, row.2.identity = row.1 := by
  constructor
  · intro own row mem
    exact own row.1 row.2 (Std.ExtTreeMap.mem_toList_iff_getElem?_eq_some.mp mem)
  · intro rows offset s held
    exact rows (offset, s) (Std.ExtTreeMap.mem_toList_iff_getElem?_eq_some.mpr held)

instance (graph : TypeGraph) : Decidable graph.Own :=
  decidable_of_iff _ own_iff.symm

theorem Own.grounded (own : graph.Own) : graph.Grounded :=
  fun target s _ held => own target s held

theorem Own.bare (own : graph.Own) : graph.bare.Own := by
  intro offset s held
  rw [getElem?_bare, Option.map_eq_some_iff] at held
  obtain ⟨original, held, rfl⟩ := held
  exact own offset original held

section Twice

/-! Resolving aliases twice. -/

theorem follow_withAliases (grounded : graph.Grounded) (offset : Int) :
    graph.withAliases.graph.follow offset = graph.follow offset :=
  follow_of_same (withAliases_qualified grounded).typedefs
    (withAliases_qualified grounded).qualifiers offset

/-- What chains end at keeps everything but its name. -/
theorem withAliases_atEnd (grounded : graph.Grounded) (unlinked : graph.link? target = none) :
    graph.withAliases.graph.structures[target]? =
      graph.structures[target]?.map fun s => s.renamed (graph.displayName target s) := by
  rw [withAliases_structures grounded, settledStructure?_of_unlinked unlinked]

/-- A graph whose aliases are resolved is as grounded as before. -/
theorem grounded_withAliases (grounded : graph.Grounded) : graph.withAliases.graph.Grounded := by
  intro target s unlinked held
  have qualified := withAliases_qualified grounded
  have unlinked' : graph.link? target = none := by
    rw [link?, qualified.typedefs, qualified.qualifiers] at unlinked
    exact unlinked
  rw [withAliases_atEnd grounded unlinked', Option.map_eq_some_iff] at held
  obtain ⟨original, held, rfl⟩ := held
  exact grounded target original unlinked' held

/-- A structure that has taken its display name takes it again. -/
theorem displayName_withAliases (grounded : graph.Grounded) (target : Int) (s : Structure) :
    graph.withAliases.graph.displayName target (s.renamed (graph.displayName target s)) =
      graph.displayName target s := by
  have sameEnds : ∀ row : DefinitionRow, graph.withAliases.graph.endsAt row.1 target =
      graph.endsAt row.1 target := by
    intro row
    rw [endsAt, follow_withAliases grounded, endsAt]
  rw [displayName, (withAliases_qualified grounded).typedefs]
  simp only [sameEnds]
  rw [displayName]
  split <;> rfl

theorem structureAt?_withAliases (grounded : graph.Grounded) (offset : Int) :
    graph.withAliases.graph.structureAt? offset = graph.structureAt? offset := by
  rw [structureAt?, follow_withAliases grounded, structureAt?]
  cases followed : graph.follow offset with
  | loops passed => rfl
  | ends target name =>
    have kept : target ∈ graph.withAliases.graph.structures ↔ target ∈ graph.structures := by
      simp only [Std.ExtTreeMap.mem_iff_isSome_getElem?,
        withAliases_atEnd grounded (link_of_follow followed), Option.isSome_map]
    simp only [kept]

theorem baseTypeAt?_withAliases (grounded : graph.Grounded) (offset : Int) :
    graph.withAliases.graph.baseTypeAt? offset = graph.baseTypeAt? offset := by
  rw [baseTypeAt?, follow_withAliases grounded, baseTypeAt?]
  cases followed : graph.follow offset with
  | loops passed => rfl
  | ends target name =>
    exact (withAliases_baseTypes grounded target).trans
      (settledBaseType?_of_unlinked (link_of_follow followed))

/-- What is to stand at an offset in the end is the same once it stands there. -/
theorem settledStructure?_withAliases (grounded : graph.Grounded) (offset : Int) :
    graph.withAliases.graph.settledStructure? offset = graph.settledStructure? offset := by
  have qualified := withAliases_qualified grounded
  have stands := withAliases_structures grounded offset
  cases followed : graph.follow offset with
  | loops passed => rw [settledStructure?, follow_withAliases grounded, followed]; exact stands
  | ends target name =>
    have followed' := (follow_withAliases grounded offset).trans followed
    have there := withAliases_atEnd grounded (link_of_follow followed)
    rw [settledStructure?_of_ends followed', there]
    cases held : graph.structures[target]? with
    | none => exact stands
    | some s =>
      have named : graph.withAliases.graph.aliasName offset name target
          (s.renamed (graph.displayName target s)) = graph.aliasName offset name target s := by
        simp only [aliasName, qualified.typedefs, qualified.qualifiers,
          displayName_withAliases grounded]
      rw [settledStructure?_of_ends followed, held]
      simp only [Option.map_some, named]
      by_cases here : target = offset
      · simp only [here, if_true]
        rfl
      · simp only [here, if_false]
        rfl

theorem settledBaseType?_withAliases (grounded : graph.Grounded) (offset : Int) :
    graph.withAliases.graph.settledBaseType? offset = graph.settledBaseType? offset := by
  have stands := withAliases_baseTypes grounded offset
  cases leads : graph.structureAt? offset with
  | some target =>
    rw [settledBaseType?, structureAt?_withAliases grounded, leads]
    exact stands
  | none =>
    have nowhere := (structureAt?_withAliases grounded offset).trans leads
    rw [settledBaseType?_of_nowhere nowhere, baseTypeAt?_withAliases grounded, stands,
      settledBaseType?_of_nowhere leads, ← Option.or_assoc, Option.or_self]

/-- Resolving aliases twice changes no more than resolving them once. -/
theorem withAliases_withAliases (grounded : graph.Grounded) :
    graph.withAliases.graph.withAliases.graph = graph.withAliases.graph := by
  have again := grounded_withAliases grounded
  have qualified := withAliases_qualified again
  have structures : graph.withAliases.graph.withAliases.graph.structures =
      graph.withAliases.graph.structures := by
    apply Std.ExtTreeMap.ext_getElem?
    intro offset
    rw [withAliases_structures again, settledStructure?_withAliases grounded,
      withAliases_structures grounded]
  have baseTypes : graph.withAliases.graph.withAliases.graph.baseTypes =
      graph.withAliases.graph.baseTypes := by
    apply Std.ExtTreeMap.ext_getElem?
    intro offset
    rw [withAliases_baseTypes again, settledBaseType?_withAliases grounded,
      withAliases_baseTypes grounded]
  calc graph.withAliases.graph.withAliases.graph
    _ = ⟨graph.withAliases.graph.withAliases.graph.baseTypes,
        graph.withAliases.graph.withAliases.graph.typedefs,
        graph.withAliases.graph.withAliases.graph.structures,
        graph.withAliases.graph.withAliases.graph.qualifiers,
        graph.withAliases.graph.withAliases.graph.globals⟩ := rfl
    _ = graph.withAliases.graph := by
      rw [baseTypes, qualified.typedefs, structures, qualified.qualifiers, qualified.globals]

end Twice

section Trees

/-! The trees that resolving gives to structures, and the graph without them. -/

/-- Every alias has the members of the structure that its identity names. -/
theorem members_aliased (own : graph.Own) {s : Structure} (held : graph.aliased[offset]? = some s) :
    ∃ original, graph.aliased[s.identity]? = some original ∧ original.members = s.members ∧
      s.bare = s := by
  have grounded := own.bare.grounded
  have stands := withAliases_structures grounded offset
  rw [← aliased, held] at stands
  cases leads : graph.bare.structureAt? offset with
  | none =>
    rw [settledStructure?_of_nowhere leads] at stands
    have itself := own.bare offset s stands.symm
    rw [getElem?_bare, eq_comm, Option.map_eq_some_iff] at stands
    obtain ⟨original, _, rfl⟩ := stands
    exact ⟨original.bare, by rw [itself, held], rfl, bare_bare original⟩
  | some target =>
    obtain ⟨stored, reached⟩ := structureAt?_eq_some_iff.mp leads
    obtain ⟨name, ends⟩ := endsAt_iff.mp reached
    obtain ⟨original, found⟩ := OffsetMap.exists_lookup stored
    have there := withAliases_atEnd grounded (link_of_follow ends)
    have itself := own.bare target original found
    rw [found, Option.map_some] at there
    rw [getElem?_bare, Option.map_eq_some_iff] at found
    obtain ⟨given, given_held, rfl⟩ := found
    rw [settledStructure?_of_ends ends, getElem?_bare, given_held] at stands
    simp only [Option.map_some, bare_bare, ite_self, Option.some.injEq] at stands
    subst stands
    have here : (given.bare.renamed (graph.bare.aliasName offset name target given.bare)).identity =
        target := itself
    refine ⟨given.bare.renamed (graph.bare.displayName target given.bare), ?_, rfl,
      congrArg (Structure.renamed · _) (bare_bare given)⟩
    rw [here]
    exact there

/-- A structure of a resolved graph without its trees is what it was before it got
them. -/
theorem bare_flattened (own : graph.Own) {s : Structure}
    (held : graph.aliased[offset]? = some s) : (Flattener.flattened graph.aliased s).bare = s := by
  obtain ⟨original, found, members, bare⟩ := members_aliased own held
  have tree : (expand graph.aliased [] s.identity).map Member.bare = s.members := by
    rw [expand_of_fresh List.not_mem_nil found, List.map_map, members]
    simp only [Function.comp_def, bare_expandMember]
    exact congrArg Structure.members bare
  rw [Structure.bare, Flattener.flattened, tree]

theorem bare_attach (structures : OffsetMap Structure) (v : Variable) :
    (attach structures v).bare = v.bare := by
  unfold attach
  split <;> rfl

/-- A resolved graph without its trees is the graph with its aliases resolved. -/
theorem bare_resolve (own : graph.Own) :
    graph.resolve.graph.bare = graph.bare.withAliases.graph := by
  have structures : (graph.resolve.graph.structures.map fun _ s => s.bare) = graph.aliased := by
    apply Std.ExtTreeMap.ext_getElem?
    intro offset
    rw [resolve_structures, Std.ExtTreeMap.getElem?_map, Std.ExtTreeMap.getElem?_map]
    cases held : graph.aliased[offset]? with
    | none => rfl
    | some s => simp only [Option.map_some, bare_flattened own held]
  have globals : graph.resolve.graph.globals.map Variable.bare =
      graph.bare.withAliases.graph.globals := by
    have kept : graph.bare.withAliases.graph.globals = graph.globals.map Variable.bare :=
      (withAliases_qualified own.bare.grounded).globals
    have attached : graph.resolve.graph.globals = graph.bare.withAliases.graph.globals.map
        (attach graph.resolve.graph.structures) := rfl
    rw [attached, kept, List.map_map, List.map_map]
    apply List.map_congr_left
    intro v _
    exact bare_attach graph.resolve.graph.structures v.bare
  calc graph.resolve.graph.bare
    _ = { graph.bare.withAliases.graph with
          structures := graph.resolve.graph.structures.map fun _ s => s.bare
          globals := graph.resolve.graph.globals.map Variable.bare } := rfl
    _ = graph.bare.withAliases.graph := by
      rw [structures, globals]
      rfl

end Trees

/-- Resolving looks at the aliases of a graph and at nothing else. -/
theorem resolve_congr {other : TypeGraph}
    (same : graph.bare.withAliases.graph = other.bare.withAliases.graph) :
    graph.resolve.graph = other.resolve.graph := by
  simp only [resolve, same]

/-- **Resolving twice is resolving once.** The base types, typedefs, qualifiers,
structures with their trees and variables with their fields all stay. -/
theorem resolve_resolve (own : graph.Own) :
    graph.resolve.graph.resolve.graph = graph.resolve.graph := by
  apply resolve_congr
  rw [bare_resolve own, withAliases_withAliases own.bare.grounded]

/-- Two structures that refer to each other, one of them through a qualifier that is a
typedef as well, among links that loop and links that dangle. -/
def tangledGraph : TypeGraph where
  baseTypes := ((∅ : OffsetMap String).insert 1 "int").insert 10 "shadowed"
  typedefs := ((((∅ : OffsetMap TypeDefinition).insert 11 ⟨"Both", 20⟩).insert 20
    ⟨"", 10⟩).insert 21 ⟨"Loop", 31⟩).insert 22 ⟨"Nowhere", 99⟩
  structures := (((∅ : OffsetMap Structure).insert 10
    ⟨some "left", 10, [⟨"right", 30, 0, [⟨"stale", 1, 8, []⟩]⟩]⟩).insert 12
      ⟨none, 12, [⟨"left", 11, 0, []⟩, ⟨"count", 1, 4, []⟩]⟩).insert 22 ⟨some "kept", 22, []⟩
  qualifiers := (((∅ : OffsetMap Int).insert 20 10).insert 30 12).insert 31 21
  globals := [⟨"root", 256, 20, [⟨"old", 1, 0, []⟩]⟩, ⟨"lost", 512, 31, []⟩]

theorem resolve_resolve_tangledGraph : tangledGraph.Own ∧
    tangledGraph.resolve.graph.resolve.graph = tangledGraph.resolve.graph :=
  ⟨by decide +kernel, resolve_resolve (by decide +kernel)⟩

end GlobalMap.TypeGraph
