import GlobalMap.Proofs.TypeGraph.Resolution

/-! What resolving aliases does to a graph, all of it. Both passes store into the maps that they
read, and a structure is renamed where it stands; what comes out is still settled by where the
chains of the given graph lead, and by nothing that was stored on the way. -/
namespace GlobalMap.TypeGraph

variable {graph : TypeGraph} {offset target : Int} {name : Option String}

/-- The chain of an offset ends at a target. One that loops ends nowhere. -/
def Ends (graph : TypeGraph) (offset target : Int) : Prop :=
  ∃ count name, Leads graph count offset target name

/-- What a graph has to look like once its aliases are resolved, by the chains of the graph as it
was given. -/
structure AliasesSettled (graph resolved : TypeGraph) : Prop where
  /-- Structures are added under the typedefs and qualifiers whose chain ends at one. -/
  structures : ∀ offset, offset ∈ resolved.structures ↔ offset ∈ graph.structures ∨
    (offset ∈ graph.typedefs ∨ offset ∈ graph.qualifiers) ∧
      ∃ target ∈ graph.structures, Ends graph offset target
  /-- Base types are added under those whose chain ends at one. -/
  baseTypes : ∀ offset, offset ∈ resolved.baseTypes ↔ offset ∈ graph.baseTypes ∨
    (offset ∈ graph.typedefs ∨ offset ∈ graph.qualifiers) ∧
      ∃ target ∈ graph.baseTypes, Ends graph offset target
  /-- An alias has the identity and the members of its structure. -/
  shared : ∀ offset target, Ends graph offset target → target ∈ graph.structures →
    ∃ s t, resolved.structures[offset]? = some s ∧ resolved.structures[target]? = some t ∧
      s.identity = target ∧ s.members = t.members
  /-- A typedef's alias has the typedef's own name. -/
  typedefName : ∀ offset target definition, graph.typedefs[offset]? = some definition →
    Ends graph offset target → target ∈ graph.structures →
      resolved.structures[offset]?.map Structure.name = some (some definition.name)
  /-- A qualifier's alias has the name of the first typedef on its chain, unless there is none or
  it is empty: then that of the structure. -/
  qualifierName : ∀ offset count target first, offset ∈ graph.qualifiers →
    Leads graph count offset target first → target ∈ graph.structures →
      ∃ t, resolved.structures[target]? = some t ∧
        resolved.structures[offset]?.map Structure.name = some (qualifiedLabel first t.name)
  /-- A structure has the name of the lowest typedef whose chain ends at it. -/
  renamed : ∀ target offset definition, target ∈ graph.structures →
    graph.typedefs[offset]? = some definition → Ends graph offset target →
      (∀ lower ∈ graph.typedefs, lower < offset → ¬ Ends graph lower target) →
        resolved.structures[target]?.map Structure.name = some (some definition.name)
  /-- One that no typedef's chain ends at keeps its own. -/
  keptName : ∀ target s, graph.structures[target]? = some s →
    (∀ offset ∈ graph.typedefs, ¬ Ends graph offset target) →
      resolved.structures[target]?.map Structure.name = some s.name
  /-- A base type has its name under every alias. -/
  baseName : ∀ offset target name, Ends graph offset target →
    graph.baseTypes[target]? = some name → resolved.baseTypes[offset]? = some name
  /-- An offset whose chain loops, or ends at nothing that is known, gains no entry. -/
  nothing : ∀ offset,
    (∀ target, Ends graph offset target → target ∉ graph.structures ∧ target ∉ graph.baseTypes) →
      offset ∉ resolved.structures ∧ offset ∉ resolved.baseTypes
  /-- Base types that were there have stayed. -/
  keptBase : ∀ (offset : Int) name, graph.baseTypes[offset]? = some name →
    resolved.baseTypes[offset]? = some name
  typedefs : resolved.typedefs = graph.typedefs
  qualifiers : resolved.qualifiers = graph.qualifiers

theorem ends_iff : Ends graph offset target ↔ ∃ name, graph.follow offset = .ends target name := by
  constructor
  · rintro ⟨count, name, leads⟩
    exact ⟨name, follow_ends_iff.mpr ⟨count, leads⟩⟩
  · rintro ⟨name, ends⟩
    obtain ⟨count, leads⟩ := follow_ends_iff.mp ends
    exact ⟨count, name, leads⟩

theorem ends_iff_endsAt : Ends graph offset target ↔ graph.endsAt offset target = true :=
  ends_iff.trans endsAt_iff.symm

theorem ends_of_unlinked (unlinked : graph.link? offset = none) :
    Ends graph offset target ↔ target = offset := by
  rw [ends_iff, follow_unlinked unlinked]
  constructor
  · rintro ⟨_, same⟩
    cases same
    rfl
  · rintro rfl
    exact ⟨none, rfl⟩

/-- What holds no links is led to from itself and from the links whose chains end in it. -/
theorem exists_ends_iff {α : Type} {m : OffsetMap α}
    (unlinked : ∀ offset ∈ m, graph.link? offset = none) :
    (∃ target ∈ m, Ends graph offset target) ↔ offset ∈ m ∨
      (offset ∈ graph.typedefs ∨ offset ∈ graph.qualifiers) ∧
        ∃ target ∈ m, Ends graph offset target := by
  constructor
  · rintro ⟨target, stored, ends⟩
    by_cases linked : offset ∈ graph.typedefs ∨ offset ∈ graph.qualifiers
    · exact .inr ⟨linked, target, stored, ends⟩
    · exact .inl ((ends_of_unlinked (unlinked_iff.mpr linked)).mp ends ▸ stored)
  · rintro (stored | ⟨_, found⟩)
    · exact ⟨offset, stored, (ends_of_unlinked (unlinked offset stored)).mpr rfl⟩
    · exact found

theorem link_of_base (separate : graph.Separate) (based : target ∈ graph.baseTypes) :
    graph.link? target = none :=
  unlinked_iff.mpr fun linked => linked.elim
    (fun mem => separate.typedef_base target mem based)
    (fun mem => separate.qualifier_base target mem based)

/-! ## Names -/

/-- Rows of a map come in ascending order of keys. -/
theorem lt_of_toList {α : Type} {m : OffsetMap α} {before after : List (Int × α)}
    {row other : Int × α} (split : m.toList = before ++ row :: after) (behind : other ∈ after) :
    row.1 < other.1 := by
  have sorted := Std.ExtTreeMap.ordered_keys_toList (t := m)
  rw [split] at sorted
  have tail := (List.pairwise_append.mp sorted).2.1
  exact Std.compare_eq_lt.mp ((List.pairwise_cons.mp tail).1 other behind)

/-- The lowest typedef that leads to a structure gives it its display name. -/
theorem displayName_of_lowest {s : Structure} {definition : TypeDefinition}
    (typed : graph.typedefs[offset]? = some definition) (ends : Ends graph offset target)
    (lowest : ∀ lower ∈ graph.typedefs, lower < offset → ¬ Ends graph lower target) :
    graph.displayName target s = some definition.name := by
  have listed : (offset, definition) ∈ graph.typedefs.toList :=
    Std.ExtTreeMap.mem_toList_iff_getElem?_eq_some.mpr typed
  unfold displayName
  cases found : graph.typedefs.toList.find? fun row => graph.endsAt row.1 target with
  | none =>
    have missed := List.find?_eq_none.mp found (offset, definition) listed
    exact absurd (ends_iff_endsAt.mp ends) missed
  | some row =>
    obtain ⟨leads, before, after, split, early⟩ := List.find?_eq_some_iff_append.mp found
    have inRows : row ∈ graph.typedefs.toList := List.mem_of_find?_eq_some found
    have held := Std.ExtTreeMap.mem_toList_iff_getElem?_eq_some.mp inRows
    rw [split] at listed
    rcases List.mem_append.mp listed with front | here
    · have missed := early _ front
      rw [ends_iff_endsAt.mp ends] at missed
      cases missed
    · rcases List.mem_cons.mp here with same | behind
      · rw [← same]
      · -- A row further down is a higher typedef, and this one leads to the structure too.
        exact absurd (ends_iff_endsAt.mpr leads)
          (lowest row.1 (OffsetMap.mem_of_lookup held) (lt_of_toList split behind))

theorem displayName_of_none {s : Structure}
    (none : ∀ offset ∈ graph.typedefs, ¬ Ends graph offset target) :
    graph.displayName target s = s.name := by
  have missing :
      (graph.typedefs.toList.find? fun row => graph.endsAt row.1 target) = Option.none := by
    rw [List.find?_eq_none]
    intro row mem leads
    have held := Std.ExtTreeMap.mem_toList_iff_getElem?_eq_some.mp mem
    exact none row.1 (OffsetMap.mem_of_lookup held) (ends_iff_endsAt.mpr leads)
  rw [displayName, missing]

theorem label_typedef {s : Structure} {definition : TypeDefinition}
    (typed : graph.typedefs[offset]? = some definition)
    (ends : graph.follow offset = .ends target name) (held : graph.structures[target]? = some s) :
    graph.label offset = some definition.name := by
  simp only [label, ends, held, typed]

theorem label_qualifier {s : Structure} (separate : graph.Separate)
    (qualifies : offset ∈ graph.qualifiers) (ends : graph.follow offset = .ends target name)
    (held : graph.structures[target]? = some s) :
    graph.label offset = qualifiedLabel name (graph.displayName target s) := by
  have untyped : graph.typedefs[offset]? = none :=
    Std.ExtTreeMap.getElem?_eq_none fun typed => separate.typedef_qualifier offset typed qualifies
  simp only [label, ends, held, untyped, qualifies, if_true]

theorem label_stored {s : Structure} (separate : graph.Separate)
    (held : graph.structures[target]? = some s) :
    graph.label target = graph.displayName target s := by
  have unlinked := link_of_stored separate (OffsetMap.mem_of_lookup held)
  obtain ⟨untyped, unqualified⟩ := link_eq_none_iff.mp unlinked
  have noQualifier := OffsetMap.not_mem_of_lookup unqualified
  simp only [label, follow_unlinked unlinked, held, untyped, noQualifier, if_false]

/-! ## What stands where -/

theorem mem_structures_resolve (separate : graph.Separate) :
    offset ∈ graph.resolve.graph.structures ↔
      ∃ target ∈ graph.structures, Ends graph offset target := by
  rw [Std.ExtTreeMap.mem_iff_isSome_getElem?]
  cases followed : graph.follow offset with
  | loops passed =>
    rw [resolve_structures, Std.ExtTreeMap.getElem?_map,
      getElem?_aliased_of_loops separate followed]
    simp [ends_iff, followed]
  | ends target name =>
    rw [structures_resolve_of_ends separate followed, Option.isSome_map,
      ← Std.ExtTreeMap.mem_iff_isSome_getElem?]
    simp [ends_iff, followed]

theorem mem_baseTypes_resolve (separate : graph.Separate) :
    offset ∈ graph.resolve.graph.baseTypes ↔
      ∃ target ∈ graph.baseTypes, Ends graph offset target := by
  rw [Std.ExtTreeMap.mem_iff_isSome_getElem?, baseTypes_resolve separate, baseTypeAt?]
  cases followed : graph.follow offset with
  | loops passed => simp [ends_iff, followed]
  | ends target name =>
    rw [← Std.ExtTreeMap.mem_iff_isSome_getElem?]
    simp [ends_iff, followed]

/-- The name of a structure in the resolved graph is its label. -/
theorem name_resolve {s : Structure} (separate : graph.Separate)
    (ends : graph.follow offset = .ends target name) (held : graph.structures[target]? = some s) :
    graph.resolve.graph.structures[offset]?.map Structure.name = some (graph.label offset) := by
  rw [structures_resolve_of_ends separate ends, held]
  rfl

/-- **Aliases stand for what they lead to.** In the resolved graph every typedef and qualifier whose
chain ends at a known type stands for that type, under the name that is due to it, and nothing else
about the types of the graph has changed. -/
theorem resolve_aliasesSettled (separate : graph.Separate) :
    AliasesSettled graph graph.resolve.graph where
  structures := by
    intro offset
    rw [mem_structures_resolve separate]
    exact exists_ends_iff fun _ stored => link_of_stored separate stored
  baseTypes := by
    intro offset
    rw [mem_baseTypes_resolve separate]
    exact exists_ends_iff fun _ based => link_of_base separate based
  shared := by
    intro offset target leads stored
    obtain ⟨name, ends⟩ := ends_iff.mp leads
    obtain ⟨s, held⟩ := OffsetMap.exists_lookup stored
    have itself := follow_unlinked (link_of_stored separate stored)
    rw [structures_resolve_of_ends separate ends, structures_resolve_of_ends separate itself, held]
    exact ⟨_, _, rfl, rfl, rfl, rfl⟩
  typedefName := by
    intro offset target definition typed leads stored
    obtain ⟨name, ends⟩ := ends_iff.mp leads
    obtain ⟨s, held⟩ := OffsetMap.exists_lookup stored
    rw [name_resolve separate ends held, label_typedef typed ends held]
  qualifierName := by
    intro offset count target first qualifies leads stored
    have ends := follow_ends_iff.mpr ⟨count, leads⟩
    obtain ⟨s, held⟩ := OffsetMap.exists_lookup stored
    have itself := follow_unlinked (link_of_stored separate stored)
    rw [name_resolve separate ends held, label_qualifier separate qualifies ends held,
      structures_resolve_of_ends separate itself, held, label_stored separate held]
    exact ⟨_, rfl, rfl⟩
  renamed := by
    intro target offset definition stored typed leads lowest
    obtain ⟨s, held⟩ := OffsetMap.exists_lookup stored
    have itself := follow_unlinked (link_of_stored separate stored)
    rw [name_resolve separate itself held, label_stored separate held,
      displayName_of_lowest typed leads lowest]
  keptName := by
    intro target s held none
    have itself := follow_unlinked (link_of_stored separate (OffsetMap.mem_of_lookup held))
    rw [name_resolve separate itself held, label_stored separate held, displayName_of_none none]
  baseName := by
    intro offset target name leads based
    obtain ⟨_, ends⟩ := ends_iff.mp leads
    rw [baseTypes_resolve separate, baseTypeAt?_of_ends ends, based]
  nothing := by
    intro offset unknown
    rw [mem_structures_resolve separate, mem_baseTypes_resolve separate]
    exact ⟨fun ⟨target, stored, leads⟩ => (unknown target leads).1 stored,
      fun ⟨target, based, leads⟩ => (unknown target leads).2 based⟩
  keptBase := by
    intro offset name based
    have itself := follow_unlinked (link_of_base separate (OffsetMap.mem_of_lookup based))
    rw [baseTypes_resolve separate, baseTypeAt?_of_ends itself, based]
  typedefs := (withAliases_qualified (separate_bare separate).grounded).typedefs
  qualifiers := (withAliases_qualified (separate_bare separate).grounded).qualifiers

/-- Typedefs of a structure and of each other, one of them without a name, qualifiers above and
below them, a base type behind both, and links that loop or end at nothing. -/
def aliasedGraph : TypeGraph where
  baseTypes := (∅ : OffsetMap String).insert 1 "int"
  typedefs := ((((∅ : OffsetMap TypeDefinition).insert 20 ⟨"", 10⟩).insert 21 ⟨"Node", 30⟩).insert
    22 ⟨"Loop", 32⟩).insert 23 ⟨"Nowhere", 99⟩
  structures := (∅ : OffsetMap Structure).insert 10
    ⟨some "node", 10, [⟨"value", 33, 0, []⟩, ⟨"next", 31, 4, []⟩]⟩
  qualifiers := ((((∅ : OffsetMap Int).insert 30 20).insert 31 21).insert 32 22).insert 33 1

theorem resolve_aliasesSettled_aliasedGraph : aliasedGraph.Separate ∧
    AliasesSettled aliasedGraph aliasedGraph.resolve.graph :=
  ⟨by decide +kernel, resolve_aliasesSettled (by decide +kernel)⟩

end GlobalMap.TypeGraph
