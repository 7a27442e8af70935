import GlobalMap.Proofs.TypeGraph.Definitions

/-! What resolving aliases leaves at every offset. Qualifiers come after all
typedefs, so the names that typedefs gave to structures are settled by then. In
the end every link stands for the type it leads to, and nothing else has moved. The
kinds of types may share offsets; where they do not, no link is left with a type of
its own. -/
namespace GlobalMap.TypeGraph

variable {graph : TypeGraph} {offset target : Int} {name : Option String}

/-- What typedefs leave at a typedef. -/
theorem withDefinitions_typedef (grounded : graph.Grounded) {definition : TypeDefinition}
    (typed : graph.typedefs[offset]? = some definition) :
    graph.withDefinitions.graph.structures[offset]? =
        ((graph.structureAt? offset).bind fun target =>
          graph.structures[target]?.map fun s => s.bare.renamed definition.name).or
            graph.structures[offset]? ∧
      graph.withDefinitions.graph.baseTypes[offset]? = graph.settledBaseType? offset := by
  have defined := withDefinitions_defined grounded
  have inRows : (offset, definition) ∈ graph.typedefs.toList :=
    Std.ExtTreeMap.mem_toList_iff_getElem?_eq_some.mpr typed
  constructor
  · have kept :
        (graph.structures[offset]?.map fun s =>
          s.renamed (graph.nameAfter graph.typedefs.toList offset s)) =
            graph.structures[offset]? := by
      simp only [nameAfter_of_link (link_of_typedef typed)]
      exact Option.map_id_apply
    rw [defined.structures offset, structureAfter, kept, aliasAfter, OffsetMap.find?_toList, typed]
    simp only [Option.bind_eq_bind, Option.bind_some, Option.pure_def,
      Option.map_eq_bind]
    rfl
  · rw [defined.baseTypes offset, afterAliases, if_pos (List.mem_map_of_mem inRows)]

/-- What typedefs leave everywhere else. -/
theorem withDefinitions_plain (grounded : graph.Grounded)
    (plain : graph.typedefs[target]? = none) :
    graph.withDefinitions.graph.structures[target]? =
        graph.structures[target]?.map (fun s => s.renamed (graph.displayName target s)) ∧
      graph.withDefinitions.graph.baseTypes[target]? = graph.baseTypes[target]? := by
  have defined := withDefinitions_defined grounded
  have rows : ∀ row ∈ graph.typedefs.toList, graph.typedefs[row.1]? = some row.2 :=
    fun row mem => Std.ExtTreeMap.mem_toList_iff_getElem?_eq_some.mp mem
  constructor
  · exact (defined.structures target).trans (structureAfter_of_plain rows plain)
  · exact (defined.baseTypes target).trans (if_neg (not_mem_rows rows plain))

/-- What typedefs leave at a link that leads to no structure. -/
theorem withDefinitions_of_nowhere (grounded : graph.Grounded) {link : Link}
    (linked : graph.link? offset = some link) (nowhere : graph.structureAt? offset = none) :
    graph.withDefinitions.graph.structures[offset]? = graph.structures[offset]? := by
  cases typed : graph.typedefs[offset]? with
  | some definition => rw [(withDefinitions_typedef grounded typed).1, nowhere]; rfl
  | none =>
    have named : ∀ s, graph.displayName offset s = s.name := nameAfter_of_link linked _
    rw [(withDefinitions_plain grounded typed).1]
    simp only [named]
    exact Option.map_id_apply

/-- What a qualifier leaves at its offset: the alias of the structure that it leads to
as typedefs have left it, otherwise what typedefs have left there. -/
def qualifiedAt? (graph : TypeGraph) (offset : Int) : Option Structure :=
  match graph.follow offset with
  | .ends target first =>
    (graph.withDefinitions.graph.structures[target]?.map fun s =>
      s.bare.renamed (Aliasing.qualifiedName first s.name)).or
        graph.withDefinitions.graph.structures[offset]?
  | .loops _ => graph.withDefinitions.graph.structures[offset]?

/-- What a graph holds once some of its qualifiers have been added. -/
structure Qualified (graph : TypeGraph) (done : List Int) (a : Aliasing) : Prop where
  typedefs : a.graph.typedefs = graph.typedefs
  qualifiers : a.graph.qualifiers = graph.qualifiers
  globals : a.graph.globals = graph.globals
  structures : ∀ offset : Int, a.graph.structures[offset]? =
    afterAliases done graph.qualifiedAt? (graph.withDefinitions.graph.structures[·]?) offset
  baseTypes : ∀ offset : Int, a.graph.baseTypes[offset]? =
    afterAliases done graph.settledBaseType? (graph.withDefinitions.graph.baseTypes[·]?) offset

theorem qualifiedAt?_of_ends (ends : graph.follow offset = .ends target name) :
    graph.qualifiedAt? offset = (graph.withDefinitions.graph.structures[target]?.map fun s =>
      s.bare.renamed (Aliasing.qualifiedName name s.name)).or
        graph.withDefinitions.graph.structures[offset]? := by
  simp only [qualifiedAt?, ends]

section Step

variable {done : List Int} {a : Aliasing}

/-- What a qualifier ends at is still as typedefs have left it. -/
theorem Qualified.atEnd (before : Qualified graph done a) (grounded : graph.Grounded)
    (rows : ∀ offset ∈ done, offset ∈ graph.qualifiers)
    (ends : graph.follow offset = .ends target name) :
    a.graph.structures[target]? = graph.withDefinitions.graph.structures[target]? ∧
      a.graph.baseTypes[target]? = graph.baseTypeAt? offset := by
  have unlinked := link_eq_none_iff.mp (link_of_follow ends)
  have notDone : target ∉ done :=
    fun mem => OffsetMap.not_mem_of_lookup unlinked.2 (rows target mem)
  have sameBase := (withDefinitions_plain grounded unlinked.1).2
  constructor
  · rw [before.structures target, afterAliases, if_neg notDone]
  · rw [before.baseTypes target, afterAliases, if_neg notDone, sameBase, baseTypeAt?_of_ends ends]

/-- Typedefs give no structure to the end of a chain and take none away. -/
theorem isSome_withDefinitions (grounded : graph.Grounded)
    (ends : graph.follow offset = .ends target name) :
    graph.withDefinitions.graph.structures[target]?.isSome =
      (graph.structureAt? offset).isSome := by
  have untyped := (link_eq_none_iff.mp (link_of_follow ends)).1
  rw [(withDefinitions_plain grounded untyped).1, Option.isSome_map, structureAt?_of_ends ends]
  cases held : graph.structures[target]? with
  | some s => rw [if_pos (OffsetMap.mem_of_lookup held)]; rfl
  | none => rw [if_neg (OffsetMap.not_mem_of_lookup held)]; rfl

/-- What a qualifier finds at its own offset, and what is to be there in the end, where no
base type is to be stored. -/
theorem settledBaseType?_of_kept (grounded : graph.Grounded)
    (kept : graph.structureAt? offset ≠ none ∨ graph.baseTypeAt? offset = none) :
    graph.withDefinitions.graph.baseTypes[offset]? = graph.settledBaseType? offset := by
  cases typed : graph.typedefs[offset]? with
  | some definition => exact (withDefinitions_typedef grounded typed).2
  | none =>
    rw [(withDefinitions_plain grounded typed).2]
    rcases kept with leads | nothing
    · obtain ⟨target, leads⟩ := Option.ne_none_iff_exists'.mp leads
      rw [settledBaseType?, leads]
    · exact (settledBaseType?_of_baseless nothing).symm

/-- One qualifier more. -/
theorem addQualifier_qualified (grounded : graph.Grounded) (before : Qualified graph done a)
    (rows : ∀ offset ∈ done, offset ∈ graph.qualifiers)
    (new : offset ∉ done) : Qualified graph (done ++ [offset]) (a.addQualifier offset) := by
  have ownStructure : a.graph.structures[offset]? =
      graph.withDefinitions.graph.structures[offset]? := by
    rw [before.structures offset, afterAliases, if_neg new]
  have ownBase : a.graph.baseTypes[offset]? = graph.withDefinitions.graph.baseTypes[offset]? := by
    rw [before.baseTypes offset, afterAliases, if_neg new]
  unfold Aliasing.addQualifier
  rw [follow_of_same before.typedefs before.qualifiers]
  cases followed : graph.follow offset with
  | loops passed =>
    have kept : graph.qualifiedAt? offset = graph.withDefinitions.graph.structures[offset]? := by
      rw [qualifiedAt?, followed]
    have nothing : graph.baseTypeAt? offset = none := by rw [baseTypeAt?, followed]
    have settled := settledBaseType?_of_kept grounded (.inr nothing)
    exact ⟨before.typedefs, before.qualifiers, before.globals,
      afterAliases_step before.structures (ownStructure.trans kept.symm) fun _ _ => rfl,
      afterAliases_step before.baseTypes (ownBase.trans settled) fun _ _ => rfl⟩
  | ends target first =>
    obtain ⟨there, base⟩ := before.atEnd grounded rows followed
    have found := isSome_withDefinitions grounded followed
    have leads := qualifiedAt?_of_ends followed
    simp only [there, base]
    cases held : graph.withDefinitions.graph.structures[target]? with
    | some s =>
      rw [held, Option.isSome_some, eq_comm, Option.isSome_iff_ne_none] at found
      have settled := settledBaseType?_of_kept grounded (.inl found)
      refine ⟨before.typedefs, before.qualifiers, before.globals, ?_,
        afterAliases_step before.baseTypes (ownBase.trans settled) fun _ _ => rfl⟩
      apply afterAliases_step before.structures
      · rw [getElem?_setStructure, if_pos rfl, leads, held, Option.map_some, Option.some_or]
      · exact fun other away => by rw [getElem?_setStructure, if_neg away]
    | none =>
      rw [held, Option.isSome_none, eq_comm, Option.isSome_eq_false_iff, Option.isNone_iff_eq_none]
        at found
      have kept : graph.qualifiedAt? offset = graph.withDefinitions.graph.structures[offset]? := by
        rw [leads, held, Option.map_none, Option.none_or]
      have structures := afterAliases_step before.structures (ownStructure.trans kept.symm)
        fun _ _ => rfl
      cases based : graph.baseTypeAt? offset with
      | some name =>
        refine ⟨before.typedefs, before.qualifiers, before.globals, structures, ?_⟩
        apply afterAliases_step before.baseTypes
        · rw [settledBaseType?_of_nowhere found, based]
          exact Std.ExtTreeMap.getElem?_insert_self
        · intro other away
          exact Std.ExtTreeMap.getElem?_insert.trans
            (if_neg fun same => away (Std.compare_eq_iff_eq.mp same))
      | none =>
        have settled := settledBaseType?_of_kept grounded (.inr based)
        exact ⟨before.typedefs, before.qualifiers, before.globals, structures,
          afterAliases_step before.baseTypes (ownBase.trans settled) fun _ _ => rfl⟩

end Step

/-- Any number of qualifiers more. -/
theorem foldl_qualified (grounded : graph.Grounded) (rest : List (Int × Int)) (done : List Int)
    (a : Aliasing) (rows : ∀ offset ∈ done ++ rest.map Prod.fst, offset ∈ graph.qualifiers)
    (distinct : (done ++ rest.map Prod.fst).Nodup) (before : Qualified graph done a) :
    Qualified graph (done ++ rest.map Prod.fst)
      (rest.foldl (fun a row => a.addQualifier row.1) a) := by
  induction rest generalizing done a with
  | nil => simpa using before
  | cons row rest ih =>
    rw [List.map_cons] at rows distinct ⊢
    have new : row.1 ∉ done := by
      intro mem
      exact (List.nodup_append.mp distinct).2.2 row.1 mem row.1 (by simp) rfl
    have next := addQualifier_qualified grounded before
      (fun offset mem => rows offset (List.mem_append_left _ mem)) new
    rw [List.append_cons] at rows distinct ⊢
    exact ih (done ++ [row.1]) _ rows distinct next

theorem withAliases_qualified (grounded : graph.Grounded) :
    Qualified graph graph.qualifiers.keys graph.withAliases := by
  have defined := withDefinitions_defined grounded
  rw [← Std.ExtTreeMap.map_fst_toList_eq_keys]
  refine foldl_qualified grounded graph.qualifiers.toList [] graph.withDefinitions ?_ ?_ ?_
  · intro offset mem
    rw [List.nil_append, Std.ExtTreeMap.map_fst_toList_eq_keys] at mem
    exact Std.ExtTreeMap.mem_keys.mp mem
  · exact OffsetMap.nodup_rows graph.qualifiers
  · exact ⟨defined.typedefs, defined.qualifiers, defined.globals,
      fun offset => (if_neg List.not_mem_nil).symm, fun offset => (if_neg List.not_mem_nil).symm⟩

theorem qualifiedName_eq_label (first display : Option String) :
    Aliasing.qualifiedName first display = qualifiedLabel first display := by
  cases first with
  | none => rfl
  | some name =>
    by_cases empty : name = ""
    · subst empty
      rfl
    · simp [Aliasing.qualifiedName, qualifiedLabel, empty, Option.filter]

/-- The name under which a structure stands at an offset whose links end at it. Where an
offset is both a typedef and a qualifier, the alias of the qualifier is the one that
stays. -/
def aliasName (graph : TypeGraph) (offset : Int) (first : Option String) (target : Int)
    (s : Structure) : Option String :=
  if offset ∈ graph.qualifiers then qualifiedLabel first (graph.displayName target s)
  else
    match graph.typedefs[offset]? with
    | some definition => some definition.name
    | none => graph.displayName target s

/-- The structure that stands at an offset in the end. An alias leaves behind whatever
fields its members carry; an offset whose links end at no structure keeps the one it
has. -/
def settledStructure? (graph : TypeGraph) (offset : Int) : Option Structure :=
  match graph.follow offset with
  | .ends target first =>
    match graph.structures[target]? with
    | some s =>
      some ((if target = offset then s else s.bare).renamed
        (graph.aliasName offset first target s))
    | none => graph.structures[offset]?
  | .loops _ => graph.structures[offset]?

theorem settledStructure?_of_ends (ends : graph.follow offset = .ends target name) :
    graph.settledStructure? offset =
      match graph.structures[target]? with
      | some s =>
        some ((if target = offset then s else s.bare).renamed
          (graph.aliasName offset name target s))
      | none => graph.structures[offset]? := by
  simp only [settledStructure?, ends]

theorem settledStructure?_of_nowhere (nowhere : graph.structureAt? offset = none) :
    graph.settledStructure? offset = graph.structures[offset]? := by
  cases followed : graph.follow offset with
  | loops passed => rw [settledStructure?, followed]
  | ends target name =>
    rw [settledStructure?_of_ends followed]
    cases held : graph.structures[target]? with
    | none => rfl
    | some s =>
      rw [structureAt?_of_ends followed, if_pos (OffsetMap.mem_of_lookup held)] at nowhere
      cases nowhere

theorem settledStructure?_of_unlinked (unlinked : graph.link? offset = none) :
    graph.settledStructure? offset =
      graph.structures[offset]?.map fun s => s.renamed (graph.displayName offset s) := by
  obtain ⟨plain, noQualifier⟩ := link_eq_none_iff.mp unlinked
  have named : ∀ s, graph.aliasName offset none offset s = graph.displayName offset s := by
    intro s
    rw [aliasName, if_neg (OffsetMap.not_mem_of_lookup noQualifier), plain]
  rw [settledStructure?_of_ends (follow_unlinked unlinked)]
  cases held : graph.structures[offset]? with
  | none => rfl
  | some s => simp only [if_true, named, Option.map_some]

/-- A link never leads to itself. -/
theorem ne_of_link {link : Link} (held : graph.link? offset = some link)
    (ends : graph.follow offset = .ends target name) : target ≠ offset := by
  rintro rfl
  rw [link_of_follow ends] at held
  cases held

/-- Where no offset stands for two kinds of type, the name of an alias is its label. -/
theorem aliasName_eq_label (separate : graph.Separate) {s : Structure}
    (ends : graph.follow offset = .ends target name) (held : graph.structures[target]? = some s) :
    graph.aliasName offset name target s = graph.label offset := by
  simp only [aliasName, label, ends, held]
  cases typed : graph.typedefs[offset]? with
  | none => rfl
  | some definition =>
    exact if_neg (separate.typedef_qualifier offset (OffsetMap.mem_of_lookup typed))

theorem link_of_stored (separate : graph.Separate) (stored : target ∈ graph.structures) :
    graph.link? target = none := by
  apply link_eq_none_iff.mpr
  constructor
  · exact Std.ExtTreeMap.getElem?_eq_none fun mem => separate.typedef_structure target mem stored
  · exact Std.ExtTreeMap.getElem?_eq_none fun mem => separate.qualifier_structure target mem stored

/-- What a link that leads to a structure has in the end. -/
theorem withAliases_structures_of_link (grounded : graph.Grounded) {link : Link} {s : Structure}
    (linked : graph.link? offset = some link) (ends : graph.follow offset = .ends target name)
    (held : graph.structures[target]? = some s) :
    graph.withAliases.graph.structures[offset]? =
      some (s.bare.renamed (graph.aliasName offset name target s)) := by
  have untyped := (link_eq_none_iff.mp (link_of_follow ends)).1
  have there := (withDefinitions_plain grounded untyped).1
  have leads : graph.structureAt? offset = some target := by
    rw [structureAt?_of_ends ends, if_pos (OffsetMap.mem_of_lookup held)]
  rw [(withAliases_qualified grounded).structures offset, afterAliases, aliasName]
  by_cases qualifies : offset ∈ graph.qualifiers
  · rw [if_pos (Std.ExtTreeMap.mem_keys.mpr qualifies), if_pos qualifies,
      qualifiedAt?_of_ends ends, there, held]
    simp only [Option.map_some, Option.some_or, qualifiedName_eq_label]
    rfl
  · rw [if_neg fun mem => qualifies (Std.ExtTreeMap.mem_keys.mp mem), if_neg qualifies]
    cases typed : graph.typedefs[offset]? with
    | some definition =>
      rw [(withDefinitions_typedef grounded typed).1, leads]
      simp only [Option.bind_some, held, Option.map_some, Option.some_or]
    | none =>
      rw [link_eq_none_iff.mpr ⟨typed, Std.ExtTreeMap.getElem?_eq_none qualifies⟩] at linked
      cases linked

/-- What a link that leads to no structure has in the end. -/
theorem withAliases_structures_of_nowhere (grounded : graph.Grounded) {link : Link}
    (linked : graph.link? offset = some link) (nowhere : graph.structureAt? offset = none) :
    graph.withAliases.graph.structures[offset]? = graph.structures[offset]? := by
  have kept := withDefinitions_of_nowhere grounded linked nowhere
  have qualified : graph.qualifiedAt? offset = graph.structures[offset]? := by
    cases followed : graph.follow offset with
    | loops passed => rw [qualifiedAt?, followed, kept]
    | ends target name =>
      have found := isSome_withDefinitions grounded followed
      rw [nowhere, Option.isSome_none, Option.isSome_eq_false_iff, Option.isNone_iff_eq_none]
        at found
      rw [qualifiedAt?_of_ends followed, found, Option.map_none, Option.none_or, kept]
  rw [(withAliases_qualified grounded).structures offset, afterAliases, qualified, kept, ite_self]

/-- Every offset has the structure that it is to have in the end. -/
theorem withAliases_structures (grounded : graph.Grounded) (offset : Int) :
    graph.withAliases.graph.structures[offset]? = graph.settledStructure? offset := by
  cases linked : graph.link? offset with
  | none =>
    obtain ⟨plain, noQualifier⟩ := link_eq_none_iff.mp linked
    have notDone : offset ∉ graph.qualifiers.keys :=
      fun mem => OffsetMap.not_mem_of_lookup noQualifier (Std.ExtTreeMap.mem_keys.mp mem)
    rw [settledStructure?_of_unlinked linked, (withAliases_qualified grounded).structures offset,
      afterAliases, if_neg notDone, (withDefinitions_plain grounded plain).1]
  | some link =>
    cases leads : graph.structureAt? offset with
    | none =>
      rw [settledStructure?_of_nowhere leads,
        withAliases_structures_of_nowhere grounded linked leads]
    | some target =>
      obtain ⟨stored, reached⟩ := structureAt?_eq_some_iff.mp leads
      obtain ⟨s, held⟩ := OffsetMap.exists_lookup stored
      obtain ⟨name, ends⟩ := endsAt_iff.mp reached
      rw [settledStructure?_of_ends ends, withAliases_structures_of_link grounded linked ends held]
      simp only [held, ne_of_link linked ends, if_false]

/-- Every offset has the base type that it is to have in the end. -/
theorem withAliases_baseTypes (grounded : graph.Grounded) (offset : Int) :
    graph.withAliases.graph.baseTypes[offset]? = graph.settledBaseType? offset := by
  rw [(withAliases_qualified grounded).baseTypes offset, afterAliases]
  split
  · rfl
  · rename_i noQualifier
    cases typed : graph.typedefs[offset]? with
    | some definition => exact (withDefinitions_typedef grounded typed).2
    | none =>
      have unlinked := link_eq_none_iff.mpr ⟨typed, Std.ExtTreeMap.getElem?_eq_none fun mem =>
        noQualifier (Std.ExtTreeMap.mem_keys.mpr mem)⟩
      rw [(withDefinitions_plain grounded typed).2, settledBaseType?_of_unlinked unlinked]

section Separate

/-! Where no offset stands for two kinds of type, what is there in the end is the type that
the offset stands for. -/

theorem Separate.grounded (separate : graph.Separate) : graph.Grounded :=
  fun target s _ held => separate.own target s held

theorem settledStructure?_of_ends_separate (separate : graph.Separate)
    (ends : graph.follow offset = .ends target name) :
    graph.settledStructure? offset = graph.structures[target]?.map fun s =>
      (if target = offset then s else s.bare).renamed (graph.label offset) := by
  rw [settledStructure?_of_ends ends]
  cases held : graph.structures[target]? with
  | some s => simp only [aliasName_eq_label separate ends held, Option.map_some]
  | none =>
    cases own : graph.structures[offset]? with
    | none => rfl
    | some s =>
      rw [follow_unlinked (link_of_stored separate (OffsetMap.mem_of_lookup own))] at ends
      cases ends
      rw [own] at held
      cases held

theorem settledStructure?_of_loops_separate {passed : Int} (separate : graph.Separate)
    (loops : graph.follow offset = .loops passed) : graph.settledStructure? offset = none := by
  rw [settledStructure?, loops]
  apply Std.ExtTreeMap.getElem?_eq_none
  intro stored
  rw [follow_unlinked (link_of_stored separate stored)] at loops
  cases loops

theorem baseTypes_of_link (separate : graph.Separate) {link : Link}
    (linked : graph.link? offset = some link) : graph.baseTypes[offset]? = none := by
  apply Std.ExtTreeMap.getElem?_eq_none
  intro based
  have unlinked : graph.link? offset = none := link_eq_none_iff.mpr
    ⟨Std.ExtTreeMap.getElem?_eq_none fun mem => separate.typedef_base offset mem based,
      Std.ExtTreeMap.getElem?_eq_none fun mem => separate.qualifier_base offset mem based⟩
  rw [linked] at unlinked
  cases unlinked

theorem settledBaseType?_eq_baseTypeAt? (separate : graph.Separate) (offset : Int) :
    graph.settledBaseType? offset = graph.baseTypeAt? offset := by
  cases linked : graph.link? offset with
  | none =>
    rw [settledBaseType?_of_unlinked linked, baseTypeAt?_of_ends (follow_unlinked linked)]
  | some link =>
    have nothing := baseTypes_of_link separate linked
    cases leads : graph.structureAt? offset with
    | none => rw [settledBaseType?_of_nowhere leads, nothing, Option.or_none]
    | some target =>
      obtain ⟨stored, reached⟩ := structureAt?_eq_some_iff.mp leads
      obtain ⟨_, ends⟩ := endsAt_iff.mp reached
      rw [settledBaseType?, leads, nothing, baseTypeAt?_of_ends ends,
        Std.ExtTreeMap.getElem?_eq_none (separate.structure_base target stored)]

end Separate

end GlobalMap.TypeGraph
