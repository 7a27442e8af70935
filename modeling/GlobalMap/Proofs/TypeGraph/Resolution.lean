import GlobalMap.Proofs.TypeGraph.Aliases
import GlobalMap.Proofs.TypeGraph.Questions

/-! The entries of a resolved graph are what the graph means. Aliases are looked up
in place of being followed and trees are kept in place of being expanded, and at no
depth does a name or a list of fields come out differently. -/
namespace GlobalMap.TypeGraph

variable {graph : TypeGraph} {offset target : Int} {name : Option String}

theorem getElem?_bare (graph : TypeGraph) (offset : Int) :
    graph.bare.structures[offset]? = graph.structures[offset]?.map Structure.bare :=
  Std.ExtTreeMap.getElem?_map

theorem mem_bare_iff : offset ∈ graph.bare.structures ↔ offset ∈ graph.structures := by
  simp only [Std.ExtTreeMap.mem_iff_isSome_getElem?, getElem?_bare, Option.isSome_map]

theorem bare_bare (s : Structure) : s.bare.bare = s.bare := by
  simp [Structure.bare, Member.bare, Function.comp_def]

/-- Without the fields it carries a graph is as separate as before. -/
theorem separate_bare (separate : graph.Separate) : graph.bare.Separate where
  typedef_base := separate.typedef_base
  typedef_structure := fun o mem held => separate.typedef_structure o mem (mem_bare_iff.mp held)
  typedef_qualifier := separate.typedef_qualifier
  qualifier_base := separate.qualifier_base
  qualifier_structure := fun o mem held =>
    separate.qualifier_structure o mem (mem_bare_iff.mp held)
  structure_base := fun o mem => separate.structure_base o (mem_bare_iff.mp mem)
  own := by
    intro o s held
    rw [getElem?_bare, Option.map_eq_some_iff] at held
    obtain ⟨original, held, rfl⟩ := held
    exact separate.own o original held

theorem follow_bare (graph : TypeGraph) (offset : Int) :
    graph.bare.follow offset = graph.follow offset := by
  have typedefs : graph.bare.typedefs = graph.typedefs := rfl
  have qualifiers : graph.bare.qualifiers = graph.qualifiers := rfl
  exact follow_of_same typedefs qualifiers offset

/-- Labels do not look at members. -/
theorem label_bare (graph : TypeGraph) (offset : Int) :
    graph.bare.label offset = graph.label offset := by
  unfold label
  rw [follow_bare]
  cases graph.follow offset with
  | loops passed => rfl
  | ends target first =>
    simp only [getElem?_bare]
    cases graph.structures[target]? with
    | none => rfl
    | some s => simp only [Option.map_some, displayName, endsAt, follow_bare]; rfl

/-- The structures of a graph whose aliases are resolved and whose members have
no fields yet. -/
def aliased (graph : TypeGraph) : OffsetMap Structure :=
  graph.bare.withAliases.graph.structures

theorem getElem?_aliased_of_ends (separate : graph.Separate)
    (ends : graph.follow offset = .ends target name) :
    graph.aliased[offset]? =
      graph.structures[target]?.map fun s => s.bare.renamed (graph.label offset) := by
  have bareEnds : graph.bare.follow offset = .ends target name :=
    (follow_bare graph offset).trans ends
  rw [aliased, withAliases_structures (separate_bare separate).grounded,
    settledStructure?_of_ends_separate (separate_bare separate) bareEnds,
    getElem?_bare, label_bare, Option.map_map]
  simp only [Function.comp_def, bare_bare, ite_self]

theorem getElem?_aliased_of_loops {passed : Int} (separate : graph.Separate)
    (loops : graph.follow offset = .loops passed) : graph.aliased[offset]? = none := by
  have bareLoops : graph.bare.follow offset = .loops passed :=
    (follow_bare graph offset).trans loops
  rw [aliased, withAliases_structures (separate_bare separate).grounded,
    settledStructure?_of_loops_separate (separate_bare separate) bareLoops]

/-- A reference is looked up where it would be followed to. -/
theorem named?_aliased (separate : graph.Separate) (offset : Int) :
    named? graph.aliased offset = graph.structureAt? offset := by
  unfold named?
  cases followed : graph.follow offset with
  | loops passed =>
    rw [getElem?_aliased_of_loops separate followed]
    simp only [structureAt?, followed, Option.map_none]
  | ends target name =>
    rw [getElem?_aliased_of_ends separate followed, structureAt?_of_ends followed]
    cases held : graph.structures[target]? with
    | none =>
      rw [if_neg (OffsetMap.not_mem_of_lookup held)]
      rfl
    | some s =>
      rw [if_pos (OffsetMap.mem_of_lookup held)]
      simp only [Option.map_some, Option.some.injEq]
      exact separate.own target s held

/-- A structure is stored with the members it had, under its display name. -/
theorem getElem?_aliased_of_stored {s : Structure} (separate : graph.Separate)
    (held : graph.structures[target]? = some s) :
    graph.aliased[target]? = some (s.bare.renamed (graph.label target)) := by
  have ends := follow_unlinked (link_of_stored separate (OffsetMap.mem_of_lookup held))
  rw [getElem?_aliased_of_ends separate ends, held]
  rfl

theorem resolve_structures (graph : TypeGraph) :
    graph.resolve.graph.structures =
      graph.aliased.map fun _ s => Flattener.flattened graph.aliased s :=
  (Flattener.flatten_plain Flattener.sound_empty).1

/-- What the resolved graph has at an offset whose chain ends. -/
theorem structures_resolve_of_ends (separate : graph.Separate)
    (ends : graph.follow offset = .ends target name) :
    graph.resolve.graph.structures[offset]? = graph.structures[target]?.map fun _ =>
      ⟨graph.label offset, target, expand graph.aliased [] target⟩ := by
  rw [resolve_structures, Std.ExtTreeMap.getElem?_map, getElem?_aliased_of_ends separate ends,
    Option.map_map]
  apply Option.map_congr
  intro s held
  have own := separate.own target s held
  simp only [Function.comp_apply, Flattener.flattened, Structure.renamed, Structure.bare, own]

/-- A reference has the base type that it ends at. -/
theorem baseTypes_resolve (separate : graph.Separate) (offset : Int) :
    graph.resolve.graph.baseTypes[offset]? = graph.baseTypeAt? offset := by
  have bare := withAliases_baseTypes (separate_bare separate).grounded offset
  rwa [settledBaseType?_eq_baseTypeAt? (separate_bare separate), baseTypeAt?, follow_bare] at bare

/-- The name of a type in the resolved graph is its label. -/
theorem typeName_resolve (separate : graph.Separate) (offset : Int) :
    graph.resolve.graph.typeName offset = graph.label offset := by
  unfold typeName
  rw [resolve_structures, Std.ExtTreeMap.getElem?_map]
  have base := baseTypes_resolve separate offset
  cases followed : graph.follow offset with
  | loops passed =>
    rw [getElem?_aliased_of_loops separate followed, label, followed]
    simp only [Option.map_none, base, baseTypeAt?, followed]
  | ends target name =>
    rw [getElem?_aliased_of_ends separate followed]
    cases held : graph.structures[target]? with
    | none =>
      simp only [Option.map_none, base, baseTypeAt?_of_ends followed, label, followed, held]
    | some s => rfl

theorem memberEntries_eq_map (graph : TypeGraph) (members : List Member) :
    graph.memberEntries members = members.map graph.memberEntry := by
  induction members with
  | nil => rfl
  | cons m rest ih => rw [memberEntries, ih, List.map_cons]

theorem fieldsBelow_of_mem {path : List Int} (seen : target ∈ path) :
    graph.fieldsBelow path target = [] := by
  rw [fieldsBelow, dif_pos seen]

theorem fieldsBelow_of_fresh {path : List Int} {s : Structure} (fresh : target ∉ path)
    (held : graph.structures[target]? = some s) :
    graph.fieldsBelow path target = s.members.map fun m => {
      name := some (Json.text m.name)
      type := (graph.label m.typeRef).map Json.text
      offset := some (.int m.offset)
      fields :=
        match graph.structureAt? m.typeRef with
        | none => []
        | some child => graph.fieldsBelow (path ++ [target]) child } := by
  rw [fieldsBelow, dif_neg fresh]
  split
  · rename_i missing
    rw [missing] at held
    cases held
  · rename_i s' held'
    rw [held] at held'
    cases held'
    rfl

/-- A member with the tree of the structure that its type stands for. -/
def memberWithTree (graph : TypeGraph) (path : List Int) (m : Member) : Member :=
  match graph.structureAt? m.typeRef with
  | none => m.bare
  | some child => { m with fields := expand graph.aliased path child }

/-- In the tree of a structure aliases are looked up, and each member has what its type stands for
all the same. -/
theorem expand_aliased (separate : graph.Separate) {path : List Int} {s : Structure}
    (fresh : target ∉ path) (held : graph.structures[target]? = some s) :
    expand graph.aliased path target = s.members.map (graph.memberWithTree (path ++ [target])) := by
  rw [expand_of_fresh fresh (getElem?_aliased_of_stored separate held)]
  simp only [Structure.renamed, Structure.bare, List.map_map]
  apply List.map_congr_left
  intro m _
  have named := named?_aliased separate m.typeRef
  cases leads : graph.structureAt? m.typeRef with
  | none => simp only [Function.comp_apply, expandMember, memberWithTree, named, leads, Member.bare]
  | some child =>
    simp only [Function.comp_apply, expandMember, memberWithTree, named, leads, Member.bare]

/-- The entries of a tree of the resolved graph are the fields that the structure
means. -/
theorem memberEntries_expand (separate : graph.Separate) {path : List Int} {target : Int}
    (stored : target ∈ graph.structures) :
    graph.resolve.graph.memberEntries (expand graph.aliased path target) =
      graph.fieldsBelow path target := by
  by_cases fresh : target ∈ path
  · rw [expand_of_mem fresh, fieldsBelow_of_mem fresh]
    rfl
  · obtain ⟨s, held⟩ := OffsetMap.exists_lookup stored
    rw [expand_aliased separate fresh held, fieldsBelow_of_fresh fresh held, memberEntries_eq_map,
      List.map_map]
    apply List.map_congr_left
    intro m _
    rw [Function.comp_apply, memberWithTree]
    cases leads : graph.structureAt? m.typeRef with
    | none =>
      simp only [memberEntry, Member.bare, memberEntries, typeLabel, typeName_resolve separate]
    | some child =>
      -- A child is a structure itself, so the statement holds of it one level down.
      have below : graph.resolve.graph.memberEntries
          (expand graph.aliased (path ++ [target]) child) =
            graph.fieldsBelow (path ++ [target]) child :=
        memberEntries_expand separate (structureAt?_eq_some_iff.mp leads).1
      simp only [memberEntry, typeLabel, typeName_resolve separate, below]
termination_by graph.structures.unvisited path
decreasing_by exact OffsetMap.unvisited_append_lt stored fresh

theorem globals_resolve (separate : graph.Separate) :
    graph.resolve.graph.globals =
      (graph.globals.map Variable.bare).map (attach graph.resolve.graph.structures) := by
  have kept := (withAliases_qualified (separate_bare separate).grounded).globals
  exact congrArg (List.map (attach graph.resolve.graph.structures)) kept

/-- A variable of the resolved graph gives the entry that it means. -/
theorem variableEntry_attach (separate : graph.Separate) (v : Variable) :
    graph.resolve.graph.variableEntry (attach graph.resolve.graph.structures v.bare) =
      graph.meaning v := by
  have leads := named?_aliased separate v.typeRef
  simp only [named?] at leads
  have held : graph.resolve.graph.structures[v.bare.typeRef]? =
      graph.aliased[v.typeRef]?.map (Flattener.flattened graph.aliased) := by
    rw [resolve_structures]
    exact Std.ExtTreeMap.getElem?_map
  unfold attach meaning
  rw [held, ← leads]
  cases found : graph.aliased[v.typeRef]? with
  | none =>
    simp only [Option.map_none, variableEntry, Variable.bare, typeLabel, typeName_resolve separate]
    rfl
  | some s =>
    rw [found] at leads
    have stored := (structureAt?_eq_some_iff.mp leads.symm).1
    simp only [Option.map_some, variableEntry, Variable.bare, typeLabel, typeName_resolve separate,
      Flattener.flattened, memberEntries_expand separate stored]

/-- **A map says what the graph means.** Every variable gives one entry, in order,
with the name of its type and the fields below it, at every depth, as typedefs and
qualifiers lead to them. -/
theorem resolve_entries (separate : graph.Separate) :
    graph.resolve.graph.entries = graph.globals.map graph.meaning := by
  rw [entries, globals_resolve separate, List.map_map, List.map_map]
  apply List.map_congr_left
  intro v _
  exact variableEntry_attach separate v


/-- A list whose nodes hold a constant of the type of the next one. -/
def nodeGraph : TypeGraph where
  baseTypes := (∅ : OffsetMap String).insert 1 "int"
  typedefs := (∅ : OffsetMap TypeDefinition).insert 20 ⟨"Node", 10⟩
  structures := (∅ : OffsetMap Structure).insert 10
    ⟨some "node", 10, [⟨"value", 1, 0, []⟩, ⟨"next", 30, 4, []⟩]⟩
  qualifiers := (∅ : OffsetMap Int).insert 30 20
  globals := [⟨"head", 256, 30, []⟩, ⟨"count", 512, 1, []⟩]

theorem resolve_entries_nodeGraph : nodeGraph.Separate ∧
    nodeGraph.resolve.graph.entries = nodeGraph.globals.map nodeGraph.meaning :=
  ⟨by decide +kernel, resolve_entries (by decide +kernel)⟩

end GlobalMap.TypeGraph
