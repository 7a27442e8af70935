import GlobalMap.Proofs.TypeGraph.Resolution
import Mathlib

/-! Offsets count for a map only by which of them are the same and which comes first. A graph whose
offsets are all replaced along an increasing function is resolved to the resolved graph with the
same replacement, and what the two give as entries does not differ. Each pass is followed through on
its own: looking up goes by sameness alone, and only the order of typedefs and of qualifiers needs
the function to be increasing. -/
namespace GlobalMap

variable {f : Int → Int}

/-! ## Finite maps -/

namespace OffsetMap

variable {α β γ δ : Type} {g : α → β} {m : OffsetMap α} {key : Int} {value : α}

/-- The rows of a map under other keys and with other values. -/
def relocate (f : Int → Int) (g : α → β) (m : OffsetMap α) : OffsetMap β :=
  (∅ : OffsetMap β).insertMany (m.toList.map fun row => (f row.1, g row.2))

theorem nodup_relocated (injective : Function.Injective f) (g : α → β) (m : OffsetMap α) :
    ((m.toList.map fun row => (f row.1, g row.2)).map Prod.fst).Nodup := by
  have keys : (m.toList.map fun row => (f row.1, g row.2)).map Prod.fst =
      (m.toList.map Prod.fst).map f := by
    rw [List.map_map, List.map_map]
    rfl
  rw [keys]
  exact List.pairwise_map.mpr ((nodup_rows m).imp fun different same => different (injective same))

theorem getElem?_relocate_iff (injective : Function.Injective f) {value : β} :
    (m.relocate f g)[key]? = some value ↔
      ∃ old a, m[old]? = some a ∧ f old = key ∧ g a = value := by
  rw [relocate, getElem?_insertMany_empty_iff (nodup_relocated injective g m)]
  simp only [List.mem_map, Std.ExtTreeMap.mem_toList_iff_getElem?_eq_some, Prod.exists,
    Prod.mk.injEq]

/-- A replaced key is looked up as the key itself was. -/
theorem getElem?_relocate (injective : Function.Injective f) (g : α → β) (m : OffsetMap α)
    (key : Int) : (m.relocate f g)[f key]? = m[key]?.map g := by
  apply Option.ext
  intro value
  rw [getElem?_relocate_iff injective, Option.map_eq_some_iff]
  constructor
  · rintro ⟨old, a, held, same, rfl⟩
    exact ⟨a, injective same ▸ held, rfl⟩
  · rintro ⟨a, held, rfl⟩
    exact ⟨key, a, held, rfl, rfl⟩

theorem relocate_insert (injective : Function.Injective f) (g : α → β) (m : OffsetMap α)
    (key : Int) (value : α) :
    relocate f g (m.insert key value) = (m.relocate f g).insert (f key) (g value) := by
  apply Std.ExtTreeMap.ext_getElem?
  intro place
  apply Option.ext
  intro found
  rw [getElem?_relocate_iff injective, Std.ExtTreeMap.getElem?_insert]
  by_cases here : f key = place
  · subst here
    rw [if_pos Std.ReflCmp.compare_self, Option.some.injEq]
    constructor
    · rintro ⟨old, a, held, same, rfl⟩
      rw [injective same, Std.ExtTreeMap.getElem?_insert_self] at held
      cases held
      rfl
    · rintro rfl
      exact ⟨key, value, Std.ExtTreeMap.getElem?_insert_self, rfl, rfl⟩
  · have apart {old : Int} (same : f old = place) : ¬ compare key old = .eq := by
      intro equal
      exact here (Std.compare_eq_iff_eq.mp equal ▸ same)
    rw [if_neg fun equal => here (Std.compare_eq_iff_eq.mp equal), getElem?_relocate_iff injective]
    constructor
    · rintro ⟨old, a, held, same, rfl⟩
      rw [Std.ExtTreeMap.getElem?_insert, if_neg (apart same)] at held
      exact ⟨old, a, held, same, rfl⟩
    · rintro ⟨old, a, held, same, rfl⟩
      refine ⟨old, a, ?_, same, rfl⟩
      rwa [Std.ExtTreeMap.getElem?_insert, if_neg (apart same)]

theorem relocate_insertMany (injective : Function.Injective f) (g : α → β) (m : OffsetMap α)
    (rows : List (Int × α)) :
    relocate f g (m.insertMany rows) =
      (m.relocate f g).insertMany (rows.map fun row => (f row.1, g row.2)) := by
  induction rows generalizing m with
  | nil => rfl
  | cons row rest ih =>
    rw [Std.ExtTreeMap.insertMany_cons, ih, relocate_insert injective, List.map_cons,
      Std.ExtTreeMap.insertMany_cons]

/-- What is done to the values of a map does not look at the keys. -/
theorem map_relocate (injective : Function.Injective f) {h : α → γ} {k : β → δ} {l : γ → δ}
    (same : ∀ a, k (g a) = l (h a)) (m : OffsetMap α) :
    ((m.relocate f g).map fun _ => k) = OffsetMap.relocate f l (m.map fun _ => h) := by
  apply Std.ExtTreeMap.ext_getElem?
  intro place
  apply Option.ext
  intro found
  simp only [Std.ExtTreeMap.getElem?_map, Option.map_eq_some_iff, getElem?_relocate_iff injective]
  constructor
  · rintro ⟨_, ⟨old, a, held, rfl, rfl⟩, rfl⟩
    exact ⟨old, h a, ⟨a, held, rfl⟩, rfl, (same a).symm⟩
  · rintro ⟨old, _, ⟨a, held, rfl⟩, rfl, rfl⟩
    exact ⟨g a, ⟨old, a, held, rfl, rfl⟩, same a⟩

/-- An increasing function leaves the rows of a map in their order. -/
theorem toList_relocate (increasing : StrictMono f) (g : α → β) (m : OffsetMap α) :
    (m.relocate f g).toList = m.toList.map fun row => (f row.1, g row.2) := by
  have listed := toList_insertMany_perm (nodup_relocated increasing.injective g m)
  have sorted : ((m.relocate f g).toList).Pairwise fun a b => a.1 < b.1 :=
    Std.ExtTreeMap.ordered_keys_toList.imp Std.compare_eq_lt.mp
  have sorted' : (m.toList.map fun row => (f row.1, g row.2)).Pairwise fun a b => a.1 < b.1 := by
    rw [List.pairwise_map]
    exact Std.ExtTreeMap.ordered_keys_toList.imp fun before =>
      increasing (Std.compare_eq_lt.mp before)
  refine List.Perm.eq_of_pairwise (fun a b _ _ up down => ?_) sorted sorted' listed
  exact absurd (up.trans down) (Int.lt_irrefl _)

end OffsetMap

/-! ## Graphs -/

namespace Member

mutual

/-- A member with every type reference in it replaced. -/
def relocate (f : Int → Int) : Member → Member
  | ⟨name, typeRef, offset, fields⟩ => ⟨name, f typeRef, offset, relocateAll f fields⟩

def relocateAll (f : Int → Int) : List Member → List Member
  | [] => []
  | m :: rest => relocate f m :: relocateAll f rest

end

theorem relocateAll_eq_map (members : List Member) :
    relocateAll f members = members.map (relocate f) := by
  induction members with
  | nil => rfl
  | cons m rest ih => rw [relocateAll, ih, List.map_cons]

theorem relocate_eq (m : Member) : m.relocate f =
    { m with typeRef := f m.typeRef, fields := m.fields.map (relocate f) } := by
  cases m
  rw [relocate, relocateAll_eq_map]

theorem bare_relocate (m : Member) : (m.relocate f).bare = m.bare.relocate f := by
  rw [relocate_eq, relocate_eq]
  rfl

end Member

namespace Structure

/-- A structure with its identity and the type references of its members replaced. -/
def relocate (f : Int → Int) (s : Structure) : Structure :=
  { s with identity := f s.identity, members := s.members.map (Member.relocate f) }

theorem bare_relocate (s : Structure) : (s.relocate f).bare = s.bare.relocate f := by
  simp only [bare, relocate, List.map_map, Function.comp_def, Member.bare_relocate]

end Structure

/-- A typedef with its target replaced. -/
def TypeDefinition.relocate (f : Int → Int) (d : TypeDefinition) : TypeDefinition :=
  { d with target := f d.target }

/-- A variable with its type reference, and those of its fields, replaced. -/
def Variable.relocate (f : Int → Int) (v : Variable) : Variable :=
  { v with typeRef := f v.typeRef, fields := v.fields.map (Member.relocate f) }

namespace TypeGraph

variable {graph : TypeGraph} {offset : Int}

/-- A graph with every offset in it replaced. -/
def relocate (f : Int → Int) (graph : TypeGraph) : TypeGraph where
  baseTypes := graph.baseTypes.relocate f id
  typedefs := graph.typedefs.relocate f (TypeDefinition.relocate f)
  structures := graph.structures.relocate f (Structure.relocate f)
  qualifiers := graph.qualifiers.relocate f f
  globals := graph.globals.map (Variable.relocate f)

theorem bare_relocate (injective : Function.Injective f) (graph : TypeGraph) :
    (graph.relocate f).bare = graph.bare.relocate f := by
  have structures : ((graph.structures.relocate f (Structure.relocate f)).map
      fun _ s => s.bare) = graph.bare.structures.relocate f (Structure.relocate f) :=
    OffsetMap.map_relocate injective Structure.bare_relocate _
  simp only [bare, relocate, List.map_map] at structures ⊢
  rw [structures]
  rfl

/-! ## Links -/

/-- Where a chain leads when every offset is replaced. -/
def Chain.relocate (f : Int → Int) : Chain → Chain
  | .ends target name => .ends (f target) name
  | .loops offset => .loops (f offset)

theorem link?_relocate (injective : Function.Injective f) (graph : TypeGraph) (offset : Int) :
    (graph.relocate f).link? (f offset) =
      (graph.link? offset).map fun link => { link with target := f link.target } := by
  simp only [link?, relocate, OffsetMap.getElem?_relocate injective]
  cases graph.typedefs[offset]? with
  | some definition => rfl
  | none =>
    simp only [Option.map_none, Option.map_map]
    rfl

theorem follow_relocate (injective : Function.Injective f) (graph : TypeGraph) (offset : Int) :
    (graph.relocate f).follow (f offset) = (graph.follow offset).relocate f := by
  have general (visited : List Int) (first : Option String) (offset : Int) :
      (graph.relocate f).followFrom (visited.map f) first (f offset) =
        (graph.followFrom visited first offset).relocate f := by
    induction visited, first, offset using followFrom.induct graph with
    | case1 visited first offset unlinked =>
      have unlinked' : (graph.relocate f).link? (f offset) = none := by
        rw [link?_relocate injective, unlinked]
        rfl
      rw [followFrom_unlinked unlinked, followFrom_unlinked unlinked']
      rfl
    | case2 visited first offset link held seen =>
      have held' := link?_relocate injective graph offset
      rw [held] at held'
      rw [followFrom_link held, followFrom_link held', if_pos seen,
        if_pos (List.mem_map_of_mem seen)]
      rfl
    | case3 visited first offset link held new ih =>
      have held' := link?_relocate injective graph offset
      rw [held] at held'
      rw [followFrom_link held, followFrom_link held', if_neg new,
        if_neg ((List.mem_map_of_injective injective).not.mpr new)]
      exact ih
  exact general [] none offset

/-! ## Aliases -/

namespace Aliasing

/-- One resolution of aliases is at the same point as another whose offsets are all replaced. -/
structure Relocates (f : Int → Int) (a b : Aliasing) : Prop where
  graph : b.graph = a.graph.relocate f
  renamed : ∀ target, b.renamed.contains (f target) = a.renamed.contains target

variable {a b : Aliasing}

theorem Relocates.setStructure (injective : Function.Injective f) (same : Relocates f a b)
    (offset : Int) (s : Structure) :
    Relocates f (a.setStructure offset s) (b.setStructure (f offset) (s.relocate f)) where
  graph := by
    simp only [Aliasing.setStructure, same.graph, relocate, OffsetMap.relocate_insert injective]
  renamed := same.renamed

theorem Relocates.setBaseType (injective : Function.Injective f) (same : Relocates f a b)
    (offset : Int) (name : String) :
    Relocates f (a.setBaseType offset name) (b.setBaseType (f offset) name) where
  graph := by
    simp only [Aliasing.setBaseType, same.graph, relocate, OffsetMap.relocate_insert injective]
    rfl
  renamed := same.renamed

/-- A notice changes neither the graph nor who has been renamed. -/
theorem Relocates.note (same : Relocates f a b) (first second : AliasNotice) :
    Relocates f (a.note first) (b.note second) :=
  ⟨same.graph, same.renamed⟩

theorem Relocates.rename (injective : Function.Injective f) (same : Relocates f a b)
    (target : Int) (s : Structure) (name : String) :
    Relocates f (a.rename target s name) (b.rename (f target) (s.relocate f) name) := by
  unfold Aliasing.rename
  rw [same.renamed]
  by_cases taken : a.renamed.contains target = true
  · rw [if_pos taken, if_pos taken]
    exact same
  · rw [if_neg taken, if_neg taken]
    refine ⟨(same.setStructure injective target (s.renamed name)).graph, fun other => ?_⟩
    rw [Std.ExtTreeSet.contains_insert, Std.ExtTreeSet.contains_insert, same.renamed]
    congr 1
    rw [Bool.eq_iff_iff, beq_iff_eq, beq_iff_eq, Std.compare_eq_iff_eq, Std.compare_eq_iff_eq]
    exact injective.eq_iff

theorem Relocates.ownStructure? (injective : Function.Injective f) (same : Relocates f a b)
    (target : Int) :
    b.ownStructure? (f target) = (a.ownStructure? target).map (Structure.relocate f) := by
  simp only [Aliasing.ownStructure?, same.graph, relocate, OffsetMap.getElem?_relocate injective]
  cases a.graph.structures[target]? with
  | none => rfl
  | some s =>
    have identity : ((s.relocate f).identity == f target) = (s.identity == target) := by
      rw [Bool.eq_iff_iff, beq_iff_eq, beq_iff_eq]
      exact injective.eq_iff
    simp only [Option.map_some, Option.filter_some, identity]
    split <;> rfl

theorem Relocates.follow (injective : Function.Injective f) (same : Relocates f a b)
    (offset : Int) : b.graph.follow (f offset) = (a.graph.follow offset).relocate f := by
  rw [same.graph, follow_relocate injective]

theorem Relocates.baseType (injective : Function.Injective f) (same : Relocates f a b)
    (target : Int) : b.graph.baseTypes[f target]? = a.graph.baseTypes[target]? := by
  rw [same.graph, relocate, OffsetMap.getElem?_relocate injective, Option.map_id]
  rfl

theorem Relocates.structure (injective : Function.Injective f) (same : Relocates f a b)
    (target : Int) : b.graph.structures[f target]? =
      a.graph.structures[target]?.map (Structure.relocate f) := by
  rw [same.graph, relocate, OffsetMap.getElem?_relocate injective]

/-- A typedef becomes an alias of the same type. -/
theorem Relocates.addDefinition (injective : Function.Injective f) (same : Relocates f a b)
    (offset : Int) (definition : TypeDefinition) :
    Relocates f (a.addDefinition offset definition)
      (b.addDefinition (f offset) (definition.relocate f)) := by
  unfold Aliasing.addDefinition
  rw [TypeDefinition.relocate, same.follow injective]
  cases a.graph.follow definition.target with
  | loops passed => exact same.note _ _
  | ends target name =>
    simp only [Chain.relocate, same.ownStructure? injective, same.baseType injective]
    cases a.ownStructure? target with
    | some s =>
      have copied : (s.relocate f).bare.renamed definition.name =
          (s.bare.renamed definition.name).relocate f := by
        rw [Structure.bare_relocate]
        rfl
      simp only [Option.map_some, copied]
      exact (same.rename injective target s definition.name).setStructure injective offset _
    | none =>
      cases a.graph.baseTypes[target]? with
      | some name => exact same.setBaseType injective offset name
      | none => exact same.note _ _

/-- A qualifier becomes an alias of the same type. -/
theorem Relocates.addQualifier (injective : Function.Injective f) (same : Relocates f a b)
    (offset : Int) : Relocates f (a.addQualifier offset) (b.addQualifier (f offset)) := by
  unfold Aliasing.addQualifier
  rw [same.follow injective]
  cases a.graph.follow offset with
  | loops passed => exact same.note _ _
  | ends target name =>
    simp only [Chain.relocate, same.structure injective, same.baseType injective]
    cases a.graph.structures[target]? with
    | some s =>
      have copied : (s.relocate f).bare.renamed (qualifiedName name (s.relocate f).name) =
          (s.bare.renamed (qualifiedName name s.name)).relocate f := by
        rw [Structure.bare_relocate]
        rfl
      simp only [Option.map_some, copied]
      exact same.setStructure injective offset _
    | none =>
      cases a.graph.baseTypes[target]? with
      | some base => exact same.setBaseType injective offset base
      | none => exact same

end Aliasing

open Aliasing (Relocates)

/-- Aliases are resolved in the same order, each to the same type. -/
theorem withAliases_relocate (increasing : StrictMono f) (graph : TypeGraph) :
    (graph.relocate f).withAliases.graph = graph.withAliases.graph.relocate f := by
  have injective := increasing.injective
  have definitions (rows : List (Int × TypeDefinition)) {a b : Aliasing}
      (same : Relocates f a b) :
      Relocates f (rows.foldl (fun a row => a.addDefinition row.1 row.2) a)
        ((rows.map fun row => (f row.1, row.2.relocate f)).foldl
          (fun a row => a.addDefinition row.1 row.2) b) := by
    induction rows generalizing a b with
    | nil => exact same
    | cons row rest ih => exact ih (same.addDefinition injective row.1 row.2)
  have qualifiers (rows : List (Int × Int)) {a b : Aliasing} (same : Relocates f a b) :
      Relocates f (rows.foldl (fun a row => a.addQualifier row.1) a)
        ((rows.map fun row => (f row.1, f row.2)).foldl (fun a row => a.addQualifier row.1) b) := by
    induction rows generalizing a b with
    | nil => exact same
    | cons row rest ih => exact ih (same.addQualifier injective row.1)
  have start : Relocates f { graph } { graph := graph.relocate f } := by
    refine ⟨rfl, fun target => ?_⟩
    rw [Std.ExtTreeSet.contains_empty, Std.ExtTreeSet.contains_empty]
  have first := definitions graph.typedefs.toList start
  have second := qualifiers graph.qualifiers.toList first
  rw [← OffsetMap.toList_relocate increasing, ← OffsetMap.toList_relocate increasing] at second
  exact second.graph

/-! ## Trees -/

theorem named?_relocate (injective : Function.Injective f) (structures : OffsetMap Structure)
    (typeRef : Int) :
    named? (structures.relocate f (Structure.relocate f)) (f typeRef) =
      (named? structures typeRef).map f := by
  rw [named?, named?, OffsetMap.getElem?_relocate injective, Option.map_map, Option.map_map]
  rfl

/-- A tree is cut at the same places. -/
theorem expand_relocate (injective : Function.Injective f) (structures : OffsetMap Structure)
    (path : List Int) (identity : Int) :
    expand (structures.relocate f (Structure.relocate f)) (path.map f) (f identity) =
      (expand structures path identity).map (Member.relocate f) := by
  by_cases seen : identity ∈ path
  · rw [expand_of_mem seen, expand_of_mem (List.mem_map_of_mem seen)]
    rfl
  · have new : f identity ∉ path.map f := (List.mem_map_of_injective injective).not.mpr seen
    have held' := OffsetMap.getElem?_relocate injective (Structure.relocate f) structures identity
    cases held : structures[identity]? with
    | none =>
      rw [held] at held'
      rw [expand_of_none held, expand_of_none held']
      rfl
    | some s =>
      rw [held] at held'
      rw [expand_of_fresh seen held, expand_of_fresh new held', Structure.relocate, List.map_map,
        List.map_map]
      apply List.map_congr_left
      intro m _
      have path' : path.map f ++ [f identity] = (path ++ [identity]).map f := by
        rw [List.map_append, List.map_singleton]
      have reference : (m.relocate f).typeRef = f m.typeRef := by rw [Member.relocate_eq]
      simp only [Function.comp_apply, expandMember, path', reference, named?_relocate injective]
      cases named? structures m.typeRef with
      | none => exact Member.bare_relocate m
      | some child =>
        -- The child stands one level down, where fewer structures are left to expand.
        have below := expand_relocate injective structures (path ++ [identity]) child
        simp only [Option.map_some, below]
        rw [Member.relocate_eq, Member.relocate_eq]
termination_by structures.unvisited path
decreasing_by exact OffsetMap.unvisited_append_lt (OffsetMap.mem_of_lookup held) seen

theorem flattened_relocate (injective : Function.Injective f) (structures : OffsetMap Structure)
    (s : Structure) :
    Flattener.flattened (structures.relocate f (Structure.relocate f)) (s.relocate f) =
      (Flattener.flattened structures s).relocate f := by
  have tree := expand_relocate injective structures [] s.identity
  simp only [Flattener.flattened, Structure.relocate]
  exact congrArg (Structure.mk s.name (f s.identity)) tree

theorem attach_relocate (injective : Function.Injective f) (structures : OffsetMap Structure)
    (v : Variable) :
    attach (structures.relocate f (Structure.relocate f)) (v.relocate f) =
      (attach structures v).relocate f := by
  have reference : (v.relocate f).typeRef = f v.typeRef := rfl
  rw [attach, attach, reference, OffsetMap.getElem?_relocate injective]
  cases structures[v.typeRef]? with
  | none => rfl
  | some s => rfl

/-- A graph whose offsets are replaced is resolved to the resolved graph whose offsets are. -/
theorem resolve_relocate (increasing : StrictMono f) (graph : TypeGraph) :
    (graph.relocate f).resolve.graph = graph.resolve.graph.relocate f := by
  have injective := increasing.injective
  have aliases : (graph.relocate f).bare.withAliases.graph =
      graph.bare.withAliases.graph.relocate f := by
    rw [bare_relocate injective, withAliases_relocate increasing]
  have structures : (graph.relocate f).resolve.graph.structures =
      graph.resolve.graph.structures.relocate f (Structure.relocate f) := by
    have aliased : (graph.relocate f).aliased =
        graph.aliased.relocate f (Structure.relocate f) :=
      congrArg TypeGraph.structures aliases
    rw [resolve_structures, resolve_structures, aliased]
    exact OffsetMap.map_relocate injective (flattened_relocate injective graph.aliased) _
  have globals : (graph.relocate f).resolve.graph.globals =
      graph.resolve.graph.globals.map (Variable.relocate f) := by
    change (graph.relocate f).bare.withAliases.graph.globals.map
        (attach (graph.relocate f).resolve.graph.structures) =
      (graph.bare.withAliases.graph.globals.map (attach graph.resolve.graph.structures)).map
        (Variable.relocate f)
    rw [structures, aliases, List.map_map, relocate, List.map_map]
    apply List.map_congr_left
    intro v _
    exact attach_relocate injective _ v
  calc (graph.relocate f).resolve.graph
    _ = { (graph.relocate f).bare.withAliases.graph with
          structures := (graph.relocate f).resolve.graph.structures
          globals := (graph.relocate f).resolve.graph.globals } := rfl
    _ = graph.resolve.graph.relocate f := by
      rw [structures, globals, aliases]
      rfl

/-! ## Entries -/

theorem typeLabel_relocate (injective : Function.Injective f) (graph : TypeGraph) (offset : Int) :
    (graph.relocate f).typeLabel (f offset) = graph.typeLabel offset := by
  simp only [typeLabel, typeName, relocate, OffsetMap.getElem?_relocate injective]
  cases graph.structures[offset]? with
  | none =>
    rw [Option.map_id]
    rfl
  | some s => rfl

mutual

/-- No offset of an entry's type shows in an entry. -/
theorem memberEntry_relocate (injective : Function.Injective f) (graph : TypeGraph) :
    ∀ m : Member, (graph.relocate f).memberEntry (m.relocate f) = graph.memberEntry m
  | ⟨name, typeRef, offset, fields⟩ => by
    rw [Member.relocate, memberEntry, memberEntry, typeLabel_relocate injective,
      memberEntries_relocate injective graph fields]

theorem memberEntries_relocate (injective : Function.Injective f) (graph : TypeGraph) :
    ∀ members : List Member, (graph.relocate f).memberEntries (Member.relocateAll f members) =
      graph.memberEntries members
  | [] => rfl
  | m :: rest => by
    rw [Member.relocateAll, memberEntries, memberEntries, memberEntry_relocate injective graph m,
      memberEntries_relocate injective graph rest]

end

theorem entries_relocate (injective : Function.Injective f) (graph : TypeGraph) :
    (graph.relocate f).entries = graph.entries := by
  have globals : (graph.relocate f).globals = graph.globals.map (Variable.relocate f) := rfl
  rw [entries, entries, globals, List.map_map]
  apply List.map_congr_left
  intro v _
  have fields := memberEntries_relocate injective graph v.fields
  rw [Member.relocateAll_eq_map] at fields
  simp only [Function.comp_apply, variableEntry, Variable.relocate, typeLabel_relocate injective,
    fields]

/-- A resolved graph whose offsets were replaced before gives the entries it gave. -/
theorem entries_resolve_relocate (increasing : StrictMono f) (graph : TypeGraph) :
    (graph.relocate f).resolve.graph.entries = graph.resolve.graph.entries := by
  rw [resolve_relocate increasing, entries_relocate increasing.injective]

end TypeGraph

end GlobalMap
