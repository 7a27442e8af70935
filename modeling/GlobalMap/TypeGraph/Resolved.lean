import GlobalMap.TypeGraph.Alias
import GlobalMap.TypeGraph.Flattener
/-!
The resolved form of a type graph.

Every typedef and qualifier whose links end at a structure or a base type becomes an alias of it,
under its own offset; a structure takes the name of the lowest typedef that ends at it. Then every
structure gets the fields of its members, and every global variable those of its structure. A
reference that leads nowhere is left as it is.
-/
namespace GlobalMap

/-- Something that kept an alias from being resolved. -/
inductive AliasNotice where
  /-- Links lead around in a circle. -/
  | loop (offset : Int)
  /-- A typedef ends at no known type. -/
  | dangling (name : String) (offset : Int)
  deriving DecidableEq, Repr

namespace AliasNotice

def message : AliasNotice → String
  | loop offset => s!"Typedef chain through {Text.hex offset} loops back on itself"
  | dangling name offset =>
    s!"Typedef {Text.Quoted.text name} at {Text.hex offset} names neither a structure " ++
      "nor a base type"

end AliasNotice

namespace TypeGraph

/-- A graph whose aliases are being resolved. -/
structure Aliasing where
  graph : TypeGraph
  /-- The structures that have taken the name of a typedef. -/
  renamed : Std.ExtTreeSet Int := ∅
  notices : List AliasNotice := []

namespace Aliasing

def note (a : Aliasing) (notice : AliasNotice) : Aliasing :=
  { a with notices := a.notices ++ [notice] }

/-- Stores a structure under an offset. -/
def setStructure (a : Aliasing) (offset : Int) (s : Structure) : Aliasing :=
  { a with graph := { a.graph with structures := a.graph.structures.insert offset s } }

/-- Stores a base type under an offset. -/
def setBaseType (a : Aliasing) (offset : Int) (name : String) : Aliasing :=
  { a with graph := { a.graph with baseTypes := a.graph.baseTypes.insert offset name } }

/-- Gives a structure the name of a typedef, unless it has taken one before. -/
def rename (a : Aliasing) (target : Int) (s : Structure) (name : String) : Aliasing :=
  if a.renamed.contains target then a
  else { a.setStructure target (s.renamed name) with renamed := a.renamed.insert target }

/-- The structure stored under its own identity. -/
def ownStructure? (a : Aliasing) (target : Int) : Option Structure :=
  a.graph.structures[target]?.filter fun s => s.identity == target

/-- Makes a typedef an alias of the type that its links end at. -/
def addDefinition (a : Aliasing) (offset : Int) (definition : TypeDefinition) : Aliasing :=
  match a.graph.follow definition.target with
  | .loops passed => a.note (.loop passed)
  | .ends target _ =>
    match a.ownStructure? target with
    | some s =>
      (a.rename target s definition.name).setStructure offset (s.bare.renamed definition.name)
    | none =>
      match a.graph.baseTypes[target]? with
      | some name => a.setBaseType offset name
      | none => a.note (.dangling definition.name offset)

/-- The name of a qualifier's alias: that of the first typedef passed, unless it is empty, otherwise
that of the structure. -/
def qualifiedName (typedefName structureName : Option String) : Option String :=
  (typedefName.filter fun name => !name.isEmpty).or structureName

/-- Makes a qualifier an alias of the type that its links end at. -/
def addQualifier (a : Aliasing) (offset : Int) : Aliasing :=
  match a.graph.follow offset with
  | .loops passed => a.note (.loop passed)
  | .ends target name =>
    match a.graph.structures[target]? with
    | some s => a.setStructure offset (s.bare.renamed (qualifiedName name s.name))
    | none =>
      match a.graph.baseTypes[target]? with
      | some base => a.setBaseType offset base
      | none => a

end Aliasing

/-- A graph with its aliases resolved: the typedefs in ascending order, then the qualifiers. -/
def withAliases (graph : TypeGraph) : Aliasing :=
  let typedefs := graph.typedefs.toList.foldl (fun a row => a.addDefinition row.1 row.2) { graph }
  graph.qualifiers.toList.foldl (fun a row => a.addQualifier row.1) typedefs

/-- A variable with the members of its structure as fields. -/
def attach (structures : OffsetMap Structure) (v : Variable) : Variable :=
  match structures[v.typeRef]? with
  | some s => { v with fields := s.members }
  | none => v

/-- The number of variables that have a structure. -/
def attachedCount (graph : TypeGraph) : Nat :=
  graph.globals.countP fun v => graph.structures.contains v.typeRef

/-- A resolved graph, with all that was noticed on the way. -/
structure Resolved where
  graph : TypeGraph
  notices : List AliasNotice
  flattener : Flattener

/-- The resolved form of a graph. Fields that the graph carries already are ignored. -/
def resolve (graph : TypeGraph) : Resolved :=
  let aliased := graph.bare.withAliases
  let (structures, flattener) := Flattener.flatten aliased.graph.structures {}
  { graph := { aliased.graph with
      structures
      globals := aliased.graph.globals.map (attach structures) }
    notices := aliased.notices
    flattener }

end TypeGraph

end GlobalMap
