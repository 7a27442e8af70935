import GlobalMap.Proofs.TypeGraph.Resolution

/-! Variables are resolved one by one. The types of a graph are resolved without a look at its
variables, and what a variable gives as an entry hangs on the types and on itself alone; so the
entries of variables from several places are those of each place, one after the other. Nothing is
asked of the graph here: aliases may meet, loop or lead nowhere. -/
namespace GlobalMap.TypeGraph

variable {vs : List Variable}

/-- A graph with other global variables. -/
def withVariables (graph : TypeGraph) (vs : List Variable) : TypeGraph :=
  { graph with globals := vs }

theorem follow_withVariables (graph : TypeGraph) (vs : List Variable) (offset : Int) :
    (graph.withVariables vs).follow offset = graph.follow offset := by
  have typedefs : (graph.withVariables vs).typedefs = graph.typedefs := rfl
  have qualifiers : (graph.withVariables vs).qualifiers = graph.qualifiers := rfl
  exact follow_of_same typedefs qualifiers offset

/-! ## Aliases -/

namespace Aliasing

/-- A resolution of aliases in a graph with other global variables. -/
def withVariables (a : Aliasing) (vs : List Variable) : Aliasing :=
  { a with graph := a.graph.withVariables vs }

theorem follow_withVariables (a : Aliasing) (vs : List Variable) (offset : Int) :
    (a.withVariables vs).graph.follow offset = a.graph.follow offset :=
  a.graph.follow_withVariables vs offset

theorem rename_withVariables (a : Aliasing) (target : Int) (s : Structure) (name : String) :
    (a.withVariables vs).rename target s name = (a.rename target s name).withVariables vs := by
  have renamed : (a.withVariables vs).renamed = a.renamed := rfl
  unfold rename
  rw [renamed]
  by_cases taken : a.renamed.contains target = true
  · rw [if_pos taken, if_pos taken]
  · rw [if_neg taken, if_neg taken]
    rfl

theorem addDefinition_withVariables (a : Aliasing) (offset : Int) (definition : TypeDefinition) :
    (a.withVariables vs).addDefinition offset definition =
      (a.addDefinition offset definition).withVariables vs := by
  have own (target : Int) : (a.withVariables vs).ownStructure? target = a.ownStructure? target :=
    rfl
  have baseTypes : (a.withVariables vs).graph.baseTypes = a.graph.baseTypes := rfl
  unfold addDefinition
  rw [follow_withVariables]
  cases a.graph.follow definition.target with
  | loops passed => rfl
  | ends target name =>
    simp only [own, baseTypes]
    cases a.ownStructure? target with
    | some s =>
      simp only [rename_withVariables]
      rfl
    | none =>
      cases a.graph.baseTypes[target]? with
      | some name => rfl
      | none => rfl

theorem addQualifier_withVariables (a : Aliasing) (offset : Int) :
    (a.withVariables vs).addQualifier offset = (a.addQualifier offset).withVariables vs := by
  have structures : (a.withVariables vs).graph.structures = a.graph.structures := rfl
  have baseTypes : (a.withVariables vs).graph.baseTypes = a.graph.baseTypes := rfl
  unfold addQualifier
  rw [follow_withVariables]
  cases a.graph.follow offset with
  | loops passed => rfl
  | ends target name =>
    simp only [structures, baseTypes]
    cases a.graph.structures[target]? with
    | some s => rfl
    | none =>
      cases a.graph.baseTypes[target]? with
      | some base => rfl
      | none => rfl

end Aliasing

/-- Aliases are resolved without a look at the variables. -/
theorem withAliases_withVariables (graph : TypeGraph) (vs : List Variable) :
    (graph.withVariables vs).withAliases = graph.withAliases.withVariables vs := by
  have definitions (rows : List (Int × TypeDefinition)) (a : Aliasing) :
      rows.foldl (fun a row => a.addDefinition row.1 row.2) (a.withVariables vs) =
        (rows.foldl (fun a row => a.addDefinition row.1 row.2) a).withVariables vs :=
    List.foldl_hom (fun a : Aliasing => a.withVariables vs) fun a row =>
      a.addDefinition_withVariables row.1 row.2
  have qualifiers (rows : List (Int × Int)) (a : Aliasing) :
      rows.foldl (fun a row => a.addQualifier row.1) (a.withVariables vs) =
        (rows.foldl (fun a row => a.addQualifier row.1) a).withVariables vs :=
    List.foldl_hom (fun a : Aliasing => a.withVariables vs) fun a row =>
      a.addQualifier_withVariables row.1
  have first := definitions graph.typedefs.toList { graph }
  have second := qualifiers graph.qualifiers.toList
    (graph.typedefs.toList.foldl (fun a row => a.addDefinition row.1 row.2) { graph })
  rw [← first] at second
  exact second

/-! ## The resolved graph -/

/-- A variable with the fields that it has in the resolved graph. -/
def settledVariable (graph : TypeGraph) (v : Variable) : Variable :=
  attach graph.resolve.graph.structures v.bare

/-- Other variables make for other variables in the resolved graph, and for nothing else. -/
theorem resolve_withVariables (graph : TypeGraph) (vs : List Variable) :
    (graph.withVariables vs).resolve =
      { graph.resolve with
        graph := graph.resolve.graph.withVariables (vs.map graph.settledVariable) } := by
  have bare : (graph.withVariables vs).bare = graph.bare.withVariables (vs.map Variable.bare) := rfl
  have settled : vs.map graph.settledVariable =
      (vs.map Variable.bare).map (attach graph.resolve.graph.structures) := by
    rw [List.map_map]
    rfl
  rw [settled, resolve, bare, withAliases_withVariables]
  rfl

/-! ## Entries -/

mutual

/-- A member has the same entry whatever variables there are. -/
theorem memberEntry_withVariables (graph : TypeGraph) :
    ∀ m : Member, (graph.withVariables vs).memberEntry m = graph.memberEntry m
  | ⟨name, typeRef, offset, fields⟩ => by
    rw [memberEntry, memberEntry, memberEntries_withVariables graph fields]
    rfl

theorem memberEntries_withVariables (graph : TypeGraph) :
    ∀ members : List Member,
      (graph.withVariables vs).memberEntries members = graph.memberEntries members
  | [] => rfl
  | m :: rest => by
    rw [memberEntries, memberEntries, memberEntry_withVariables graph m,
      memberEntries_withVariables graph rest]

end

theorem entries_withVariables (graph : TypeGraph) (vs : List Variable) :
    (graph.withVariables vs).entries = vs.map graph.variableEntry := by
  apply List.map_congr_left
  intro v _
  rw [variableEntry, variableEntry, memberEntries_withVariables]
  rfl

/-- Every variable has its own entry in the map. -/
theorem entries_resolve_withVariables (graph : TypeGraph) (vs : List Variable) :
    (graph.withVariables vs).resolve.graph.entries =
      vs.map fun v => graph.resolve.graph.variableEntry (graph.settledVariable v) := by
  rw [resolve_withVariables, entries_withVariables, List.map_map]
  rfl

/-- Variables from several places have the entries of each place, one after the other. -/
theorem entries_resolve_flatMap {α : Type} (graph : TypeGraph) (places : List α)
    (own : α → List Variable) :
    (graph.withVariables (places.flatMap own)).resolve.graph.entries =
      places.flatMap fun p => (graph.withVariables (own p)).resolve.graph.entries := by
  simp only [entries_resolve_withVariables, List.map_flatMap]

end GlobalMap.TypeGraph
