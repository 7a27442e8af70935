import GlobalMap.Json.Basic
/-!
Entries of a map file: one variable at the top, one member below.

An entry is written as an object that leaves out what is unknown and an empty list of fields, with
its keys in a fixed order. It is read from any object: keys it does not know are ignored, and `null`
says the same as no value.
-/
namespace GlobalMap

/-- One variable or member of a map. What an entry carries is any JSON value but `null`; an unknown
one is absent. -/
structure MapEntry where
  name : Option Json := none
  addr : Option Json := none
  type : Option Json := none
  offset : Option Json := none
  fields : List MapEntry := []

namespace MapEntry

/-- Why a JSON value is not an entry. -/
inductive Fault where
  /-- The value, or one among the fields, is not an object. -/
  | notAnObject
  /-- The fields are a value without elements of any kind. -/
  | fieldsNotAList
  deriving DecidableEq, Repr

/-- A field of an object, if its value is known. -/
def known (key : String) : Option Json → List (Json.Text × Json)
  | none => []
  | some value => [(Json.Text.ofString key, value)]

/-- The field that holds the entries below an entry; an empty list is left out. -/
def nested : List Json → List (Json.Text × Json)
  | [] => []
  | items => [(Json.Text.ofString "fields", .array items)]

mutual

/-- The object that an entry is written as. -/
def toJson : MapEntry → Json
  | ⟨name, addr, type, offset, fields⟩ =>
    .object (known "addr" addr ++ known "type" type ++ known "offset" offset ++
      known "name" name ++ nested (listToJson fields))

def listToJson : List MapEntry → List Json
  | [] => []
  | entry :: rest => toJson entry :: listToJson rest

end

/-- The value of a key, if it is known. -/
def valueOf (fields : List (Json.Text × Json)) (key : String) : Option Json :=
  match Json.lookup fields key with
  | some .null => none
  | value => value

mutual

/-- The entry that a value is. -/
def ofJson : Json → Except Fault MapEntry
  | .object fields => do
    let below ← belowOf fields
    return {
      name := valueOf fields "name"
      addr := valueOf fields "addr"
      type := valueOf fields "type"
      offset := valueOf fields "offset"
      fields := below }
  | _ => .error .notAnObject

/-- The entries below an object with these fields. -/
def belowOf : List (Json.Text × Json) → Except Fault (List MapEntry)
  | [] => .ok []
  | (key, value) :: rest =>
    if key = Json.Text.ofString "fields" then elementsOf value else belowOf rest

/-- The entries that the elements of a value are. The elements of a text are its characters and
those of an object its keys, none of which is an entry. -/
def elementsOf : Json → Except Fault (List MapEntry)
  | .array items => listOfJson items
  | .string [] => .ok []
  | .string _ => .error .notAnObject
  | .object [] => .ok []
  | .object _ => .error .notAnObject
  | _ => .error .fieldsNotAList

def listOfJson : List Json → Except Fault (List MapEntry)
  | [] => .ok []
  | item :: rest => do
    let entry ← ofJson item
    let entries ← listOfJson rest
    return entry :: entries

end

mutual

/-- Whether two entries are the same. -/
def same : MapEntry → MapEntry → Bool
  | ⟨name, addr, type, offset, fields⟩, ⟨name', addr', type', offset', fields'⟩ =>
    name == name' && addr == addr' && type == type' && offset == offset' &&
      sameList fields fields'

def sameList : List MapEntry → List MapEntry → Bool
  | [], [] => true
  | a :: as, b :: bs => same a b && sameList as bs
  | _, _ => false

end

instance : BEq MapEntry := ⟨same⟩

end MapEntry

end GlobalMap
