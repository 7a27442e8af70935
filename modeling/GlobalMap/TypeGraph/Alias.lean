import GlobalMap.TypeGraph.Basic
/-!
Following typedefs and qualifiers to the type they stand for.

An offset that is a typedef or a qualifier is a link to another offset. Following links ends at the
first offset that is no link, or comes back to one that has been passed (`Chain`). No link is
followed twice, so the search ends on every graph.
-/
namespace GlobalMap.TypeGraph

/-- A link from one offset to another. A typedef gives the link a name. -/
structure Link where
  name : Option String
  target : Int
  deriving DecidableEq, Repr

/-- The link at an offset. Where an offset is both a typedef and a qualifier, it is a typedef. -/
def link? (graph : TypeGraph) (offset : Int) : Option Link :=
  match graph.typedefs[offset]? with
  | some definition => some ⟨some definition.name, definition.target⟩
  | none => graph.qualifiers[offset]?.map fun target => ⟨none, target⟩

/-- Where following links leads. -/
inductive Chain where
  /-- To an offset that is no link. `name` is the name of the first typedef on the way. -/
  | ends (target : Int) (name : Option String)
  /-- Back to an offset that has been passed. -/
  | loops (offset : Int)
  deriving DecidableEq, Repr

/-- The number of links that are not among the visited offsets, a link that is both a typedef and a
qualifier counted twice. -/
def unvisitedLinks (graph : TypeGraph) (visited : List Int) : Nat :=
  graph.typedefs.unvisited visited + graph.qualifiers.unvisited visited

theorem unvisitedLinks_cons_lt {graph : TypeGraph} {visited : List Int} {offset : Int} {link : Link}
    (held : graph.link? offset = some link) (fresh : offset ∉ visited) :
    graph.unvisitedLinks (offset :: visited) < graph.unvisitedLinks visited := by
  unfold unvisitedLinks
  have typedefs := OffsetMap.unvisited_cons_le graph.typedefs visited offset
  have qualifiers := OffsetMap.unvisited_cons_le graph.qualifiers visited offset
  simp only [link?] at held
  split at held
  · rename_i definition h
    have mem : offset ∈ graph.typedefs := by
      rw [Std.ExtTreeMap.mem_iff_isSome_getElem?, h]
      rfl
    have := OffsetMap.unvisited_cons_lt mem fresh
    omega
  · simp only [Option.map_eq_some_iff] at held
    obtain ⟨target, h, _⟩ := held
    have mem : offset ∈ graph.qualifiers := by
      rw [Std.ExtTreeMap.mem_iff_isSome_getElem?, h]
      rfl
    have := OffsetMap.unvisited_cons_lt mem fresh
    omega

/-- Follows links from an offset, where `visited` are the links passed so far and `name` is the name
of the first typedef among them. -/
def followFrom (graph : TypeGraph) (visited : List Int) (name : Option String) (offset : Int) :
    Chain :=
  match _held : graph.link? offset with
  | none => .ends offset name
  | some link =>
    if _seen : offset ∈ visited then .loops offset
    else followFrom graph (offset :: visited) (name.or link.name) link.target
termination_by graph.unvisitedLinks visited
decreasing_by exact unvisitedLinks_cons_lt _held _seen

/-- Where following links from an offset leads. -/
def follow (graph : TypeGraph) (offset : Int) : Chain :=
  followFrom graph [] none offset

end GlobalMap.TypeGraph
