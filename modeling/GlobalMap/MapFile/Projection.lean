import GlobalMap.MapFile.Entry
import GlobalMap.TypeGraph.Basic
/-!
The entries of a map file that the global variables of a type graph give.

A variable becomes an entry with an address, a member one with the offset inside its parent. Both
are named, and have the display name of their type where the type is known.
-/
namespace GlobalMap

namespace TypeGraph

/-- The display name of a type as a value. -/
def typeLabel (graph : TypeGraph) (offset : Int) : Option Json :=
  (graph.typeName offset).map Json.text

mutual

/-- The entry of a member. -/
def memberEntry (graph : TypeGraph) : Member → MapEntry
  | ⟨name, typeRef, offset, fields⟩ => {
      name := some (Json.text name)
      type := graph.typeLabel typeRef
      offset := some (.int offset)
      fields := memberEntries graph fields }

def memberEntries (graph : TypeGraph) : List Member → List MapEntry
  | [] => []
  | m :: rest => memberEntry graph m :: memberEntries graph rest

end

/-- The entry of a variable. -/
def variableEntry (graph : TypeGraph) (v : Variable) : MapEntry where
  name := some (Json.text v.name)
  addr := some (.int v.address)
  type := graph.typeLabel v.typeRef
  fields := graph.memberEntries v.fields

/-- The entries of all variables, in their order. -/
def entries (graph : TypeGraph) : List MapEntry :=
  graph.globals.map graph.variableEntry

end TypeGraph

end GlobalMap
