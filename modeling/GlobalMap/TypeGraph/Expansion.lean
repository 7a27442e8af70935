import GlobalMap.TypeGraph.Basic
import GlobalMap.Text.Hex
/-!
The tree of members below a structure.

A member whose type is a structure has that structure's members as fields, and so on down, but a
structure that is already being expanded further up is not expanded again: the member stays and has
no fields. So no structure stands twice on one way from the root to a leaf, and trees are finite.
-/
namespace GlobalMap

/-- The identity of the structure that a type reference names, if it names one. -/
def named? (structures : OffsetMap Structure) (typeRef : Int) : Option Int :=
  structures[typeRef]?.map Structure.identity

/-- The members of a structure with their fields. `path` holds the structures being expanded above
this one, the outermost first. -/
def expand (structures : OffsetMap Structure) (path : List Int) (identity : Int) : List Member :=
  if _fresh : identity ∈ path then []
  else
    match _held : structures[identity]? with
    | none => []
    | some s =>
      s.members.map fun m =>
        match named? structures m.typeRef with
        | none => m.bare
        | some child => { m with fields := expand structures (path ++ [identity]) child }
termination_by structures.unvisited path
decreasing_by
  refine OffsetMap.unvisited_append_lt ?_ _fresh
  rw [Std.ExtTreeMap.mem_iff_isSome_getElem?, _held]
  rfl

/-- A reference from a structure back to one that is being expanded. -/
structure Cycle where
  /-- The structure that is reached again. -/
  offset : Int
  /-- The structures being expanded, the outermost first. -/
  path : List Int
  deriving DecidableEq, Repr

namespace Cycle

/-- The way around, from the outermost structure to the one reached again. -/
def chain (c : Cycle) : String :=
  " -> ".intercalate ((c.path ++ [c.offset]).map Text.hex)

def message (c : Cycle) : String :=
  s!"Structure {Text.hex c.offset} references itself: {c.chain}"

end Cycle

end GlobalMap
