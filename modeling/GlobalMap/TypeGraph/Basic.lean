import GlobalMap.TypeGraph.OffsetMap
/-!
The type graph of a program: its types by the offsets of the entries that declare them, and its
global variables.

Types refer to each other by offset. What a reference names is found by looking the offset up, so a
graph may hold references to nothing, references that lead around in circles, and several offsets
that stand for one structure.
-/
namespace GlobalMap

/-- A member of a structure. Its fields are the members below it, once they are known. -/
structure Member where
  name : String
  typeRef : Int
  offset : Int
  fields : List Member := []
  deriving Repr, Inhabited

namespace Member

mutual

/-- Whether two members are the same, down to their last field. -/
def same : Member → Member → Bool
  | ⟨name, typeRef, offset, fields⟩, ⟨name', typeRef', offset', fields'⟩ =>
    name == name' && typeRef == typeRef' && offset == offset' && sameList fields fields'

def sameList : List Member → List Member → Bool
  | [], [] => true
  | a :: as, b :: bs => same a b && sameList as bs
  | _, _ => false

end

instance : BEq Member := ⟨same⟩

/-- A member without its fields. -/
def bare (m : Member) : Member :=
  { m with fields := [] }

end Member

/-- A structure or union. Its identity is the offset of the entry that declares it; a structure
stored under another offset is an alias of the one stored under its identity. -/
structure Structure where
  name : Option String
  identity : Int
  members : List Member := []
  deriving Repr, BEq

namespace Structure

/-- A structure whose members have no fields yet. -/
def bare (s : Structure) : Structure :=
  { s with members := s.members.map Member.bare }

/-- A structure under another name. -/
def renamed (s : Structure) (name : Option String) : Structure :=
  { s with name }

end Structure

/-- A name for another type. -/
structure TypeDefinition where
  name : String
  target : Int
  deriving DecidableEq, Repr

/-- A global variable. Its fields are the members of its structure, once they are known. -/
structure Variable where
  name : String
  address : Int
  typeRef : Int
  fields : List Member := []
  deriving Repr, BEq

namespace Variable

/-- A variable without its fields. -/
def bare (v : Variable) : Variable :=
  { v with fields := [] }

end Variable

/-- The types and global variables of a program. A qualifier is an entry that adds `const` or
`volatile` to the type it refers to. -/
structure TypeGraph where
  baseTypes : OffsetMap String := ∅
  typedefs : OffsetMap TypeDefinition := ∅
  structures : OffsetMap Structure := ∅
  qualifiers : OffsetMap Int := ∅
  globals : List Variable := []

namespace TypeGraph

/-- The display name of a type: that of the structure at its offset if there is one, otherwise that
of the base type. -/
def typeName (graph : TypeGraph) (offset : Int) : Option String :=
  match graph.structures[offset]? with
  | some s => s.name
  | none => graph.baseTypes[offset]?

/-- A graph in which no member or variable has fields. -/
def bare (graph : TypeGraph) : TypeGraph :=
  { graph with
    structures := graph.structures.map fun _ s => s.bare
    globals := graph.globals.map Variable.bare }

end TypeGraph

end GlobalMap
