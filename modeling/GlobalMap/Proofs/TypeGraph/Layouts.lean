import Mathlib.Data.Option.Basic
import Mathlib.Data.List.Forall2
import Mathlib.Logic.Relation
import GlobalMap.Proofs.TypeGraph.Resolution

/-! Which of the offsets on a chain a reference gives makes no difference to the layout of anything.
A typedef, a qualifier of it and the structure behind both are one structure wherever trees are put
together, also where they are cut: a structure that comes back through a qualifier is cut at the
same member as one that comes back directly. -/
namespace GlobalMap

/-- A member with the tree below it, and without types. -/
inductive Layout where
  | member (name : String) (offset : Int) (fields : List Layout)

mutual

/-- What a tree of members looks like when types are not looked at. -/
def Member.layout : Member → Layout
  | ⟨name, _, offset, fields⟩ => .member name offset (layouts fields)

def layouts : List Member → List Layout
  | [] => []
  | m :: rest => m.layout :: layouts rest

end

theorem layouts_eq_map (members : List Member) : layouts members = members.map Member.layout := by
  induction members with
  | nil => rfl
  | cons m rest ih => rw [layouts, ih, List.map_cons]

namespace TypeGraph

variable {graph other : TypeGraph} {offset target place : Int} {m m' : Member}

/-- A link leads directly from one offset to another. -/
def Linked (graph : TypeGraph) (offset next : Int) : Prop :=
  ∃ link, graph.link? offset = some link ∧ link.target = next

/-- A reference is replaced by one further on in its chain, the end of the chain included, or is
left as it is. -/
def Onward (graph : TypeGraph) : Int → Int → Prop :=
  Relation.ReflTransGen (Linked graph)

/-- Members alike but for a reference further on. Fields that they carry already do not matter. -/
structure MemberMoved (graph : TypeGraph) (m m' : Member) : Prop where
  name : m'.name = m.name
  offset : m'.offset = m.offset
  typeRef : Onward graph m.typeRef m'.typeRef

structure StructureMoved (graph : TypeGraph) (s s' : Structure) : Prop where
  name : s'.name = s.name
  identity : s'.identity = s.identity
  members : List.Forall₂ (MemberMoved graph) s.members s'.members

structure VariableMoved (graph : TypeGraph) (v v' : Variable) : Prop where
  name : v'.name = v.name
  address : v'.address = v.address
  typeRef : Onward graph v.typeRef v'.typeRef

/-- A graph in which any references of members and variables are replaced by others further on in
their chains. -/
structure Moved (graph other : TypeGraph) : Prop where
  baseTypes : other.baseTypes = graph.baseTypes
  typedefs : other.typedefs = graph.typedefs
  qualifiers : other.qualifiers = graph.qualifiers
  structures : ∀ offset : Int,
    Option.Rel (StructureMoved graph) graph.structures[offset]? other.structures[offset]?
  globals : List.Forall₂ (VariableMoved graph) graph.globals other.globals

/-- A chain leads to the same structure from each of its offsets. -/
theorem structureAt?_of_onward (onward : Onward graph offset place) :
    graph.structureAt? place = graph.structureAt? offset := by
  induction onward with
  | refl => rfl
  | @tail here next _ linked ih =>
    obtain ⟨link, held, rfl⟩ := linked
    rw [← ih]
    apply Option.ext
    intro target
    have same : graph.endsAt link.target target = true ↔ graph.endsAt here target = true := by
      simp only [endsAt_iff, follow_link_iff held]
      constructor
      · rintro ⟨name, ends⟩
        exact ⟨_, name, ends, rfl⟩
      · rintro ⟨_, name, ends, _⟩
        exact ⟨name, ends⟩
    simp only [structureAt?_eq_some_iff, same]

theorem isSome_of_rel {α : Type} {r : α → α → Prop} {a b : Option α} (alike : Option.Rel r a b) :
    b.isSome = a.isSome := by
  cases alike <;> rfl

theorem exists_of_rel {α : Type} {r : α → α → Prop} {a : α} {b : Option α}
    (alike : Option.Rel r (some a) b) : ∃ x, b = some x ∧ r a x := by
  cases alike with
  | some holds => exact ⟨_, rfl, holds⟩

/-- What does not tell counterparts apart is the same all along two lists of them. -/
theorem map_eq_of_forall₂ {α β : Type} {r : α → α → Prop} {g g' : α → β} {xs ys : List α}
    (alike : List.Forall₂ r xs ys) (same : ∀ x y, r x y → g' y = g x) :
    ys.map g' = xs.map g := by
  induction alike with
  | nil => rfl
  | cons first _ ih => rw [List.map_cons, List.map_cons, same _ _ first, ih]

namespace Moved

theorem structure_of_held {s : Structure} (moved : Moved graph other)
    (held : graph.structures[target]? = some s) :
    ∃ s', other.structures[target]? = some s' ∧ StructureMoved graph s s' := by
  have alike := moved.structures target
  rw [held] at alike
  exact exists_of_rel alike

theorem mem_structures (moved : Moved graph other) :
    target ∈ other.structures ↔ target ∈ graph.structures := by
  rw [Std.ExtTreeMap.mem_iff_isSome_getElem?, Std.ExtTreeMap.mem_iff_isSome_getElem?,
    isSome_of_rel (moved.structures target)]

theorem follow (moved : Moved graph other) (offset : Int) :
    other.follow offset = graph.follow offset :=
  follow_of_same moved.typedefs moved.qualifiers offset

theorem structureAt? (moved : Moved graph other) (offset : Int) :
    other.structureAt? offset = graph.structureAt? offset := by
  unfold TypeGraph.structureAt?
  simp only [moved.follow, moved.mem_structures]

/-- Where references lead does not count for which offsets stand for what. -/
theorem separate (moved : Moved graph other) (separate : graph.Separate) : other.Separate where
  typedef_base := by
    rw [moved.typedefs, moved.baseTypes]
    exact separate.typedef_base
  typedef_structure := by
    rw [moved.typedefs]
    exact fun o typed stored => separate.typedef_structure o typed (moved.mem_structures.mp stored)
  typedef_qualifier := by
    rw [moved.typedefs, moved.qualifiers]
    exact separate.typedef_qualifier
  qualifier_base := by
    rw [moved.qualifiers, moved.baseTypes]
    exact separate.qualifier_base
  qualifier_structure := by
    rw [moved.qualifiers]
    exact fun o qualifies stored =>
      separate.qualifier_structure o qualifies (moved.mem_structures.mp stored)
  structure_base := by
    rw [moved.baseTypes]
    exact fun o stored => separate.structure_base o (moved.mem_structures.mp stored)
  own := by
    intro offset s held
    obtain ⟨s', found⟩ := OffsetMap.exists_lookup
      (moved.mem_structures.mp (OffsetMap.mem_of_lookup held))
    obtain ⟨_, held', alike⟩ := moved.structure_of_held found
    rw [held] at held'
    cases held'
    exact alike.identity.trans (separate.own offset s' found)

/-- A reference and its counterpart stand for one structure. -/
theorem sameStructure (moved : Moved graph other) (onward : Onward graph offset place) :
    other.structureAt? place = graph.structureAt? offset :=
  (moved.structureAt? place).trans (structureAt?_of_onward onward)

/-- A member and its counterpart look the same if the structures below them do. -/
theorem layout_memberWithTree (moved : Moved graph other) {path : List Int}
    (alike : MemberMoved graph m m')
    (below : ∀ child ∈ graph.structures,
      layouts (expand other.aliased path child) = layouts (expand graph.aliased path child)) :
    (other.memberWithTree path m').layout = (graph.memberWithTree path m).layout := by
  rw [memberWithTree, moved.sameStructure alike.typeRef, memberWithTree]
  cases leads : graph.structureAt? m.typeRef with
  | none => simp only [Member.layout, Member.bare, alike.name, alike.offset]
  | some child =>
    have stored := (structureAt?_eq_some_iff.mp leads).1
    simp only [Member.layout, alike.name, alike.offset, below child stored]

/-- The trees of a structure look the same in both graphs, below every path. -/
theorem layouts_expand (moved : Moved graph other) (separate : graph.Separate) {path : List Int}
    {target : Int} (stored : target ∈ graph.structures) :
    layouts (expand other.aliased path target) = layouts (expand graph.aliased path target) := by
  by_cases fresh : target ∈ path
  · rw [expand_of_mem fresh, expand_of_mem fresh]
  · obtain ⟨s, held⟩ := OffsetMap.exists_lookup stored
    obtain ⟨s', held', alike⟩ := moved.structure_of_held held
    rw [expand_aliased separate fresh held, expand_aliased (moved.separate separate) fresh held',
      layouts_eq_map, layouts_eq_map, List.map_map, List.map_map]
    -- Counterparts are compared member by member, and what stands below them one level down.
    exact map_eq_of_forall₂ alike.members fun m m' alike =>
      moved.layout_memberWithTree alike fun child stored => layouts_expand moved separate stored
termination_by graph.structures.unvisited path
decreasing_by exact OffsetMap.unvisited_append_lt (OffsetMap.mem_of_lookup held) fresh

end Moved

/-- The layout of what a reference stands for in the resolved graph. -/
theorem layouts_structures_resolve (separate : graph.Separate) (offset : Int) :
    (graph.resolve.graph.structures[offset]?.map fun s => layouts s.members) =
      (graph.structureAt? offset).map fun target => layouts (expand graph.aliased [] target) := by
  cases followed : graph.follow offset with
  | loops passed =>
    rw [resolve_structures, Std.ExtTreeMap.getElem?_map,
      getElem?_aliased_of_loops separate followed]
    simp only [structureAt?, followed, Option.map_none]
  | ends target name =>
    rw [structures_resolve_of_ends separate followed, structureAt?_of_ends followed]
    cases held : graph.structures[target]? with
    | none =>
      rw [if_neg (OffsetMap.not_mem_of_lookup held)]
      rfl
    | some s =>
      rw [if_pos (OffsetMap.mem_of_lookup held)]
      rfl

theorem layouts_attach (structures : OffsetMap Structure) (v : Variable) :
    layouts (attach structures v.bare).fields =
      (structures[v.typeRef]?.map fun s => layouts s.members).getD [] := by
  unfold attach
  have bare : v.bare.typeRef = v.typeRef := rfl
  rw [bare]
  cases structures[v.typeRef]? with
  | none => rfl
  | some s => rfl

/-- What a reference and its counterpart stand for look the same. -/
theorem Moved.layouts_structures (moved : Moved graph other) (separate : graph.Separate)
    (onward : Onward graph offset place) :
    (other.resolve.graph.structures[place]?.map fun s => layouts s.members) =
      graph.resolve.graph.structures[offset]?.map fun s => layouts s.members := by
  rw [layouts_structures_resolve separate, layouts_structures_resolve (moved.separate separate),
    moved.sameStructure onward]
  apply Option.map_congr
  intro target leads
  exact moved.layouts_expand separate (structureAt?_eq_some_iff.mp leads).1

/-- **Aliases do not show in layouts.** Wherever in their chains the references of members and
variables are moved to, every structure and every variable of the resolved graph looks the same,
but for types. -/
theorem layouts_resolve (separate : graph.Separate) (moved : Moved graph other) :
    (∀ offset : Int, (other.resolve.graph.structures[offset]?.map fun s => layouts s.members) =
      graph.resolve.graph.structures[offset]?.map fun s => layouts s.members) ∧
    (other.resolve.graph.globals.map fun v => layouts v.fields) =
      graph.resolve.graph.globals.map fun v => layouts v.fields := by
  refine ⟨fun offset => moved.layouts_structures separate .refl, ?_⟩
  rw [globals_resolve separate, globals_resolve (moved.separate separate)]
  simp only [List.map_map]
  refine map_eq_of_forall₂ moved.globals fun v v' alike => ?_
  simp only [Function.comp_apply, layouts_attach]
  rw [moved.layouts_structures separate alike.typeRef]

/-- The list of `nodeGraph` with its node named directly by the next node, and by its typedef by
the variable. -/
def directGraph : TypeGraph :=
  { nodeGraph with
    structures := (∅ : OffsetMap Structure).insert 10
      ⟨some "node", 10, [⟨"value", 1, 0, []⟩, ⟨"next", 10, 4, []⟩]⟩
    globals := [⟨"head", 256, 20, []⟩, ⟨"count", 512, 1, []⟩] }

theorem moved_directGraph : Moved nodeGraph directGraph := by
  have toTypedef : Linked nodeGraph 30 20 := ⟨⟨none, 20⟩, by decide +kernel, rfl⟩
  have toNode : Linked nodeGraph 20 10 := ⟨⟨some "Node", 10⟩, by decide +kernel, rfl⟩
  have next : Onward nodeGraph 30 10 := .tail (.single toTypedef) toNode
  refine ⟨rfl, rfl, rfl, fun offset => ?_, ?_⟩
  · by_cases here : offset = 10
    · subst here
      simp only [nodeGraph, directGraph, Std.ExtTreeMap.getElem?_insert_self]
      exact .some ⟨rfl, rfl, .cons ⟨rfl, rfl, .refl⟩ (.cons ⟨rfl, rfl, next⟩ .nil)⟩
    · have away : ¬ compare 10 offset = .eq :=
        fun same => here (Std.compare_eq_iff_eq.mp same).symm
      simp only [nodeGraph, directGraph, Std.ExtTreeMap.getElem?_insert, away, if_false,
        Std.ExtTreeMap.getElem?_empty]
      exact .none
  · exact .cons ⟨rfl, rfl, .single toTypedef⟩ (.cons ⟨rfl, rfl, .refl⟩ .nil)

theorem layouts_resolve_directGraph : nodeGraph.Separate ∧ Moved nodeGraph directGraph ∧
    (∀ offset : Int,
      (directGraph.resolve.graph.structures[offset]?.map fun s => layouts s.members) =
        nodeGraph.resolve.graph.structures[offset]?.map fun s => layouts s.members) ∧
    (directGraph.resolve.graph.globals.map fun v => layouts v.fields) =
      nodeGraph.resolve.graph.globals.map fun v => layouts v.fields :=
  ⟨by decide +kernel, moved_directGraph, layouts_resolve (by decide +kernel) moved_directGraph⟩

end TypeGraph

end GlobalMap
