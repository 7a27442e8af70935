import GlobalMap.MapFile.Entry
import GlobalMap.Json.Printer
import GlobalMap.Json.Reader
/-!
The text of a map file: a JSON array of entries, without blanks or indented.
-/
namespace GlobalMap.MapFile

/-- Why a text is not a map file. -/
inductive Fault where
  /-- The text cannot be read. -/
  | unreadable (fault : Json.Fault)
  /-- The document is some other value than an array. -/
  | notAnArray (kind : String)
  /-- An element of the array is not an entry. -/
  | entry (fault : MapEntry.Fault)
  deriving DecidableEq, Repr

namespace Fault

def message : Fault → String
  | unreadable .malformed => "The text is not a JSON document"
  | unreadable (.overlong number) => number.message
  | notAnArray kind => s!"Map file must hold a JSON array, got {kind}"
  | entry .notAnObject => "A map entry must be a JSON object"
  | entry .fieldsNotAList => "The fields of a map entry must be a JSON array"

end Fault

/-- The kind of a value, as messages name it. -/
def kindName : Json → String
  | .null => "NoneType"
  | .bool _ => "bool"
  | .int _ => "int"
  | .real _ => "float"
  | .string _ => "str"
  | .array _ => "list"
  | .object _ => "dict"

/-- The layout that the choice of indented output stands for. -/
def layoutFor (pretty : Bool) : Json.Layout :=
  if pretty then .indented else .compact

/-- The text of a list of entries. -/
def print (entries : List MapEntry) (pretty : Bool) : Except Number.Overlong String :=
  Json.print (layoutFor pretty) (.array (MapEntry.listToJson entries))

/-- The entries that a text holds. -/
def read (text : String) : Except Fault (List MapEntry) :=
  match Json.parse text with
  | .error fault => .error (.unreadable fault)
  | .ok (.array items) => (MapEntry.listOfJson items).mapError .entry
  | .ok document => .error (.notAnArray (kindName document))

end GlobalMap.MapFile
