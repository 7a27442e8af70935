import GlobalMap.Proofs.TypeGraph.Descent
import GlobalMap.Proofs.TypeGraph.Meaning
import GlobalMap.TypeGraph.Resolved

/-! What adding the typedefs of a graph leaves at every offset. They are
added one after the other; after any number of them the graph holds what the rows
added so far account for, and elsewhere what it held before. -/
namespace GlobalMap.TypeGraph

variable {graph : TypeGraph} {offset target : Int} {name : Option String}

/-- A row of a typedef. -/
abbrev DefinitionRow := Int × TypeDefinition

/-- The name of a structure once some typedefs have been added. -/
def nameAfter (graph : TypeGraph) (done : List DefinitionRow) (target : Int) (s : Structure) :
    Option String :=
  match done.find? fun row => graph.endsAt row.1 target with
  | some row => some row.2.name
  | none => s.name

/-- The alias that a typedef has become, if it is one of those added and leads to a
structure. -/
def aliasAfter (graph : TypeGraph) (done : List DefinitionRow) (offset : Int) :
    Option Structure := do
  let row ← done.find? fun row => row.1 == offset
  let target ← graph.structureAt? offset
  let s ← graph.structures[target]?
  return s.bare.renamed row.2.name

/-- The structure stored at an offset once some typedefs have been added. -/
def structureAfter (graph : TypeGraph) (done : List DefinitionRow) (offset : Int) :
    Option Structure :=
  (graph.aliasAfter done offset).or
    (graph.structures[offset]?.map fun s => s.renamed (graph.nameAfter done offset s))

/-- Whatever links lead to is stored under its own identity, if it is a structure. -/
def Grounded (graph : TypeGraph) : Prop :=
  ∀ (target : Int) (s : Structure), graph.link? target = none →
    graph.structures[target]? = some s → s.identity = target

/-- The base type that a reference ends at. -/
def baseTypeAt? (graph : TypeGraph) (offset : Int) : Option String :=
  match graph.follow offset with
  | .ends target _ => graph.baseTypes[target]?
  | .loops _ => none

theorem baseTypeAt?_of_ends (ends : graph.follow offset = .ends target name) :
    graph.baseTypeAt? offset = graph.baseTypes[target]? := by
  simp only [baseTypeAt?, ends]

theorem structureAt?_of_ends (ends : graph.follow offset = .ends target name) :
    graph.structureAt? offset = if target ∈ graph.structures then some target else none := by
  simp only [structureAt?, ends]

/-- The base type that stands at an offset in the end. An offset whose links end at
no base type, or at a structure, keeps the one it has. -/
def settledBaseType? (graph : TypeGraph) (offset : Int) : Option String :=
  match graph.structureAt? offset with
  | some _ => graph.baseTypes[offset]?
  | none => (graph.baseTypeAt? offset).or graph.baseTypes[offset]?

/-- What stands at an offset once aliases have been added at some offsets. -/
def afterAliases {α : Type} (done : List Int) (found kept : Int → Option α) (offset : Int) :
    Option α :=
  if offset ∈ done then found offset else kept offset

/-- One alias more, at an offset where it is found afterwards. -/
theorem afterAliases_step {α : Type} {done : List Int} {found kept before after : Int → Option α}
    {added : Int} (held : ∀ offset, before offset = afterAliases done found kept offset)
    (here : after added = found added)
    (elsewhere : ∀ offset, added ≠ offset → after offset = before offset) (offset : Int) :
    after offset = afterAliases (done ++ [added]) found kept offset := by
  unfold afterAliases at held ⊢
  by_cases same : added = offset
  · subst same
    simp [here]
  · have other : offset ≠ added := fun h => same h.symm
    simp [elsewhere offset same, held offset, other]

/-- What a graph holds once some of its typedefs have been added. -/
structure Defined (graph : TypeGraph) (done : List DefinitionRow) (a : Aliasing) : Prop where
  typedefs : a.graph.typedefs = graph.typedefs
  qualifiers : a.graph.qualifiers = graph.qualifiers
  globals : a.graph.globals = graph.globals
  renamed : ∀ target ∈ graph.structures,
    a.renamed.contains target = done.any fun row => graph.endsAt row.1 target
  structures : ∀ offset : Int, a.graph.structures[offset]? = graph.structureAfter done offset
  baseTypes : ∀ offset : Int,
    a.graph.baseTypes[offset]? =
      afterAliases (done.map Prod.fst) graph.settledBaseType? (graph.baseTypes[·]?) offset

theorem nameAfter_concat (done : List DefinitionRow) (row : DefinitionRow) (target : Int)
    (s : Structure) :
    graph.nameAfter (done ++ [row]) target s =
      if (!done.any fun row => graph.endsAt row.1 target) && graph.endsAt row.1 target then
        some row.2.name
      else graph.nameAfter done target s := by
  unfold nameAfter
  rw [List.find?_append]
  cases found : done.find? fun row => graph.endsAt row.1 target with
  | some first =>
    have leads : graph.endsAt first.1 target = true := by
      simpa using List.find?_some found
    have any : done.any (fun row => graph.endsAt row.1 target) = true :=
      List.any_eq_true.mpr ⟨first, List.mem_of_find?_eq_some found, leads⟩
    simp [any]
  | none =>
    have absent : done.any (fun row => graph.endsAt row.1 target) = false := by
      rw [List.any_eq_false]
      exact List.find?_eq_none.mp found
    cases leads : graph.endsAt row.1 target with
    | true => simp [absent, leads]
    | false => simp [leads]

/-- No structure at a link takes the name of a typedef. -/
theorem nameAfter_of_link {link : Link} (held : graph.link? target = some link)
    (done : List DefinitionRow) (s : Structure) : graph.nameAfter done target s = s.name := by
  have absent : (done.find? fun row => graph.endsAt row.1 target) = none := by
    rw [List.find?_eq_none]
    intro row _ leads
    obtain ⟨_, ends⟩ := endsAt_iff.mp leads
    rw [link_of_follow ends] at held
    cases held
  rw [nameAfter, absent]

theorem aliasAfter_concat (done : List DefinitionRow) (row : DefinitionRow)
    (elsewhere : row.1 ≠ offset ∨ graph.structureAt? offset = none) :
    graph.aliasAfter (done ++ [row]) offset = graph.aliasAfter done offset := by
  unfold aliasAfter
  rcases elsewhere with away | nowhere
  · have other : (row.1 == offset) = false := beq_eq_false_iff_ne.mpr away
    simp only [List.find?_append, List.find?_cons, other, List.find?_nil, Option.or_none]
  · simp [nowhere]

/-- An offset that is no typedef never becomes the alias of one. -/
theorem aliasAfter_of_plain {done : List DefinitionRow}
    (rows : ∀ row ∈ done, graph.typedefs[row.1]? = some row.2)
    (plain : graph.typedefs[offset]? = none) : graph.aliasAfter done offset = none := by
  have absent : done.find? (fun row => row.1 == offset) = none := by
    rw [List.find?_eq_none]
    intro row mem same
    have defined := rows row mem
    rw [beq_iff_eq.mp same, plain] at defined
    cases defined
  rw [aliasAfter, absent]
  rfl

/-- A typedef that leads to no structure changes no structure. -/
theorem structureAfter_of_none {done : List DefinitionRow} {row : DefinitionRow}
    (nowhere : graph.structureAt? row.1 = none) (offset : Int) :
    graph.structureAfter (done ++ [row]) offset = graph.structureAfter done offset := by
  have kept : graph.aliasAfter (done ++ [row]) offset = graph.aliasAfter done offset := by
    apply aliasAfter_concat
    by_cases same : row.1 = offset
    · exact .inr (same ▸ nowhere)
    · exact .inl same
  unfold structureAfter
  rw [kept]
  cases held : graph.structures[offset]? with
  | none => rfl
  | some s =>
    have stored := OffsetMap.mem_of_lookup held
    have apart : graph.endsAt row.1 offset = false := by
      cases leads : graph.endsAt row.1 offset with
      | false => rfl
      | true =>
        rw [structureAt?_eq_some_iff.mpr ⟨stored, leads⟩] at nowhere
        cases nowhere
    simp only [Option.map_some, nameAfter_concat, apart, Bool.and_false, Bool.false_eq_true,
      if_false]

/-- A typedef that leads to a structure is stored as its alias, and gives it its
name if it is the first. -/
theorem structureAfter_of_some {done : List DefinitionRow} {row : DefinitionRow} {s : Structure}
    (leads : graph.structureAt? row.1 = some target) (held : graph.structures[target]? = some s)
    (rows : ∀ row ∈ done, graph.typedefs[row.1]? = some row.2)
    (new : row.1 ∉ done.map Prod.fst) (offset : Int) :
    graph.structureAfter (done ++ [row]) offset =
      if row.1 = offset then some (s.bare.renamed row.2.name)
      else if target = offset ∧ (done.any fun row => graph.endsAt row.1 target) = false then
        some (s.renamed row.2.name)
      else graph.structureAfter done offset := by
  have reached := (structureAt?_eq_some_iff.mp leads).2
  obtain ⟨_, ends⟩ := endsAt_iff.mp reached
  by_cases same : row.1 = offset
  · subst same
    have absent : done.find? (fun other => other.1 == row.1) = none := by
      rw [List.find?_eq_none]
      intro other mem
      rw [beq_iff_eq]
      exact fun h => new (h ▸ List.mem_map_of_mem mem)
    unfold structureAfter aliasAfter
    simp [List.find?_append, absent, leads, held]
  · rw [if_neg same]
    unfold structureAfter
    rw [aliasAfter_concat done row (.inl same)]
    by_cases here : target = offset
    · subst here
      have plain := aliasAfter_of_plain rows (link_eq_none_iff.mp (link_of_follow ends)).1
      simp only [plain, held, Option.none_or, Option.map_some, nameAfter_concat, reached,
        Bool.and_true, Bool.not_eq_true', true_and]
      split <;> rfl
    · have apart : graph.endsAt row.1 offset = false := by
        rw [← Bool.not_eq_true]
        exact fun leads' => here (endsAt_unique reached leads')
      simp only [nameAfter_concat, apart, here, Bool.and_false, Bool.false_eq_true, if_false,
        false_and]

theorem getElem?_setStructure (a : Aliasing) (key : Int) (s : Structure) (offset : Int) :
    (a.setStructure key s).graph.structures[offset]? =
      if key = offset then some s else a.graph.structures[offset]? := by
  simp only [Aliasing.setStructure, Std.ExtTreeMap.getElem?_insert, Std.compare_eq_iff_eq]

theorem rename_structures (a : Aliasing) (target : Int) (s : Structure) (name : String)
    (offset : Int) :
    (a.rename target s name).graph.structures[offset]? =
      if target = offset ∧ a.renamed.contains target = false then some (s.renamed name)
      else a.graph.structures[offset]? := by
  unfold Aliasing.rename
  cases taken : a.renamed.contains target with
  | true => simp
  | false => simp only [Bool.false_eq_true, if_false, getElem?_setStructure, and_true]

theorem rename_renamed (a : Aliasing) (target : Int) (s : Structure) (name : String)
    (offset : Int) :
    (a.rename target s name).renamed.contains offset =
      (a.renamed.contains offset || target == offset) := by
  unfold Aliasing.rename
  cases taken : a.renamed.contains target with
  | true =>
    by_cases same : target = offset
    · subst same
      simp [taken]
    · simp [same]
  | false =>
    rw [if_neg Bool.false_ne_true, Std.ExtTreeSet.contains_insert, Bool.or_comm, Bool.eq_iff_iff]
    simp only [Bool.or_eq_true, beq_iff_eq, Std.compare_eq_iff_eq]

/-- Everything else about a graph is left alone by a new name. -/
theorem rename_rest (a : Aliasing) (target : Int) (s : Structure) (name : String) :
    (a.rename target s name).graph.typedefs = a.graph.typedefs ∧
      (a.rename target s name).graph.qualifiers = a.graph.qualifiers ∧
      (a.rename target s name).graph.globals = a.graph.globals ∧
      (a.rename target s name).graph.baseTypes = a.graph.baseTypes := by
  unfold Aliasing.rename
  split <;> exact ⟨rfl, rfl, rfl, rfl⟩

/-- Adding aliases never changes where links lead. -/
theorem follow_of_same {other : TypeGraph} (typedefs : other.typedefs = graph.typedefs)
    (qualifiers : other.qualifiers = graph.qualifiers) (offset : Int) :
    other.follow offset = graph.follow offset := by
  apply follow_congr
  intro o
  simp only [link?, typedefs, qualifiers]

/-- Typedefs change nothing but names where there is no typedef. -/
theorem structureAfter_of_plain {done : List DefinitionRow}
    (rows : ∀ row ∈ done, graph.typedefs[row.1]? = some row.2)
    (plain : graph.typedefs[target]? = none) :
    graph.structureAfter done target =
      graph.structures[target]?.map fun s => s.renamed (graph.nameAfter done target s) := by
  rw [structureAfter, aliasAfter_of_plain rows plain, Option.none_or]

theorem not_mem_rows {done : List DefinitionRow}
    (rows : ∀ row ∈ done, graph.typedefs[row.1]? = some row.2)
    (plain : graph.typedefs[target]? = none) : target ∉ done.map Prod.fst := by
  intro mem
  obtain ⟨row, inside, rfl⟩ := List.mem_map.mp mem
  rw [rows row inside] at plain
  cases plain

/-- A typedef that leads to no structure may store a base type, and no more. -/
theorem defined_of_none {done : List DefinitionRow} {row : DefinitionRow} {a : Aliasing}
    (before : Defined graph done a) (nowhere : graph.structureAt? row.1 = none)
    (baseTypes : OffsetMap String) (notices : List AliasNotice)
    (here : baseTypes[row.1]? = graph.settledBaseType? row.1)
    (elsewhere : ∀ offset : Int, row.1 ≠ offset →
      baseTypes[offset]? = a.graph.baseTypes[offset]?) :
    Defined graph (done ++ [row]) { a with graph := { a.graph with baseTypes }, notices } := by
  refine ⟨before.typedefs, before.qualifiers, before.globals, ?_, ?_, ?_⟩
  · intro target stored
    have apart : graph.endsAt row.1 target = false := by
      rw [← Bool.not_eq_true]
      intro leads
      rw [structureAt?_eq_some_iff.mpr ⟨stored, leads⟩] at nowhere
      cases nowhere
    simp only [before.renamed target stored, List.any_append, List.any_cons, apart, List.any_nil,
      Bool.or_false]
  · intro offset
    rw [structureAfter_of_none nowhere]
    exact before.structures offset
  · rw [List.map_append]
    exact afterAliases_step before.baseTypes here elsewhere

/-- A typedef that leads to a structure stores it under its own offset and may
rename it. -/
theorem defined_of_some {done : List DefinitionRow} {row : DefinitionRow} {a : Aliasing}
    {s : Structure} (before : Defined graph done a)
    (rows : ∀ row ∈ done, graph.typedefs[row.1]? = some row.2) (new : row.1 ∉ done.map Prod.fst)
    (ends : graph.follow row.1 = .ends target name) (held : graph.structures[target]? = some s)
    (old : Option String) :
    Defined graph (done ++ [row])
      ((a.rename target (s.renamed old) row.2.name).setStructure row.1
        (s.bare.renamed row.2.name)) := by
  have stored := OffsetMap.mem_of_lookup held
  have reached : graph.endsAt row.1 target = true := endsAt_iff.mpr ⟨name, ends⟩
  have leads := structureAt?_eq_some_iff.mpr ⟨stored, reached⟩
  obtain ⟨typedefs, qualifiers, globals, bases⟩ := rename_rest a target (s.renamed old) row.2.name
  refine ⟨typedefs.trans before.typedefs, qualifiers.trans before.qualifiers,
    globals.trans before.globals, ?_, ?_, ?_⟩
  · intro other inside
    have decided : graph.endsAt row.1 other = (target == other) := by
      rw [endsAt, ends]
    change (a.rename target (s.renamed old) row.2.name).renamed.contains other = _
    rw [rename_renamed, before.renamed other inside, List.any_append, List.any_cons, List.any_nil,
      Bool.or_false, decided]
  · intro offset
    rw [getElem?_setStructure, rename_structures, before.renamed target stored,
      before.structures offset, structureAfter_of_some leads held rows new]
    rfl
  · rw [List.map_append]
    apply afterAliases_step before.baseTypes
    · change (a.rename target (s.renamed old) row.2.name).graph.baseTypes[row.1]? = _
      rw [bases, before.baseTypes row.1, afterAliases, if_neg new, settledBaseType?, leads]
    · intro offset _
      change (a.rename target (s.renamed old) row.2.name).graph.baseTypes[offset]? = _
      rw [bases]

/-- A typedef whose target loops loops itself. -/
theorem follow_typedef_loops {definition : TypeDefinition} {passed : Int}
    (typed : graph.typedefs[offset]? = some definition)
    (loops : graph.follow definition.target = .loops passed) :
    ∃ passed, graph.follow offset = .loops passed := by
  cases followed : graph.follow offset with
  | loops passed => exact ⟨passed, rfl⟩
  | ends target name =>
    obtain ⟨_, ends⟩ := endsAt_iff.mp ((follow_typedef_iff typed).mp followed).1
    rw [loops] at ends
    cases ends

theorem settledBaseType?_of_nowhere (nowhere : graph.structureAt? offset = none) :
    graph.settledBaseType? offset = (graph.baseTypeAt? offset).or graph.baseTypes[offset]? := by
  simp only [settledBaseType?, nowhere]

/-- An offset that stands for no base type keeps the one it has. -/
theorem settledBaseType?_of_baseless (nothing : graph.baseTypeAt? offset = none) :
    graph.settledBaseType? offset = graph.baseTypes[offset]? := by
  rw [settledBaseType?, nothing, Option.none_or]
  split <;> rfl

theorem settledBaseType?_of_unlinked (unlinked : graph.link? offset = none) :
    graph.settledBaseType? offset = graph.baseTypes[offset]? := by
  rw [settledBaseType?, baseTypeAt?_of_ends (follow_unlinked unlinked), Option.or_self]
  split <;> rfl

/-- One typedef more. -/
theorem addDefinition_defined (grounded : graph.Grounded) {done : List DefinitionRow}
    {row : DefinitionRow} {a : Aliasing} (before : Defined graph done a)
    (rows : ∀ row ∈ done, graph.typedefs[row.1]? = some row.2)
    (typed : graph.typedefs[row.1]? = some row.2) (new : row.1 ∉ done.map Prod.fst) :
    Defined graph (done ++ [row]) (a.addDefinition row.1 row.2) := by
  have kept : a.graph.baseTypes[row.1]? = graph.baseTypes[row.1]? := by
    rw [before.baseTypes, afterAliases, if_neg new]
  unfold Aliasing.addDefinition
  rw [follow_of_same before.typedefs before.qualifiers]
  cases followed : graph.follow row.2.target with
  | loops passed =>
    obtain ⟨_, loops⟩ := follow_typedef_loops typed followed
    have nowhere : graph.structureAt? row.1 = none := by rw [structureAt?, loops]
    have nothing : graph.baseTypeAt? row.1 = none := by rw [baseTypeAt?, loops]
    have same := kept.trans (settledBaseType?_of_baseless nothing).symm
    exact defined_of_none before nowhere _ _ same fun _ _ => rfl
  | ends target first =>
    have ends : graph.follow row.1 = .ends target (some row.2.name) :=
      (follow_typedef_iff typed).mpr ⟨endsAt_iff.mpr ⟨first, followed⟩, rfl⟩
    have unlinked := link_of_follow followed
    have untyped := (link_eq_none_iff.mp unlinked).1
    have there : a.graph.structures[target]? = graph.structures[target]?.map _ :=
      (before.structures target).trans (structureAfter_of_plain rows untyped)
    simp only [Aliasing.ownStructure?, there]
    cases held : graph.structures[target]? with
    | some s =>
      have own : (s.renamed (graph.nameAfter done target s)).identity = target :=
        grounded target s unlinked held
      simp only [Option.map_some, Option.filter_some, own, beq_self_eq_true, if_true]
      exact defined_of_some before rows new ends held _
    | none =>
      have unstored := OffsetMap.not_mem_of_lookup held
      have nowhere : graph.structureAt? row.1 = none := by
        rw [structureAt?_of_ends ends, if_neg unstored]
      have base : a.graph.baseTypes[target]? = graph.baseTypeAt? row.1 := by
        rw [before.baseTypes target, afterAliases, if_neg (not_mem_rows rows untyped),
          baseTypeAt?_of_ends ends]
      simp only [Option.map_none, Option.filter_none, base]
      cases based : graph.baseTypeAt? row.1 with
      | some name =>
        refine defined_of_none before nowhere _ _ ?_ ?_
        · rw [Std.ExtTreeMap.getElem?_insert_self, settledBaseType?_of_nowhere nowhere, based,
            Option.some_or]
        · intro offset other
          rw [Std.ExtTreeMap.getElem?_insert, if_neg fun h => other (Std.compare_eq_iff_eq.mp h)]
      | none =>
        have same := kept.trans (settledBaseType?_of_baseless based).symm
        exact defined_of_none before nowhere _ _ same fun _ _ => rfl

/-- Any number of typedefs more. -/
theorem foldl_defined (grounded : graph.Grounded) (rest done : List DefinitionRow) (a : Aliasing)
    (rows : ∀ row ∈ done ++ rest, graph.typedefs[row.1]? = some row.2)
    (distinct : ((done ++ rest).map Prod.fst).Nodup) (before : Defined graph done a) :
    Defined graph (done ++ rest) (rest.foldl (fun a row => a.addDefinition row.1 row.2) a) := by
  induction rest generalizing done a with
  | nil => simpa using before
  | cons row rest ih =>
    have new : row.1 ∉ done.map Prod.fst := by
      rw [List.map_append, List.map_cons] at distinct
      intro mem
      exact (List.nodup_append.mp distinct).2.2 row.1 mem row.1 (by simp) rfl
    have next := addDefinition_defined grounded before
      (fun row mem => rows row (List.mem_append_left _ mem)) (rows row (by simp)) new
    rw [List.append_cons] at rows distinct ⊢
    exact ih (done ++ [row]) _ rows distinct next

/-- A graph with the aliases of its typedefs. -/
def withDefinitions (graph : TypeGraph) : Aliasing :=
  graph.typedefs.toList.foldl (fun a row => a.addDefinition row.1 row.2) { graph }

theorem withDefinitions_defined (grounded : graph.Grounded) :
    Defined graph graph.typedefs.toList graph.withDefinitions := by
  refine foldl_defined grounded graph.typedefs.toList [] { graph } ?_ ?_ ?_
  · intro row mem
    exact Std.ExtTreeMap.mem_toList_iff_getElem?_eq_some.mp mem
  · exact OffsetMap.nodup_rows graph.typedefs
  · refine ⟨rfl, rfl, rfl, ?_, ?_, ?_⟩
    · intro target _
      rfl
    · intro offset
      have unaliased : graph.aliasAfter [] offset = none := rfl
      rw [structureAfter, unaliased, Option.none_or]
      cases graph.structures[offset]? with
      | some s => rfl
      | none => rfl
    · intro offset
      rw [List.map_nil, afterAliases, if_neg List.not_mem_nil]

end GlobalMap.TypeGraph
