import GlobalMap.Number.Binary64
/-!
JSON values.

An object keeps its fields in order and holds a key once. A string is a sequence of characters in
which half of a surrogate pair may stand alone, because `\u` escapes can say so.
-/
namespace GlobalMap

namespace Json

/-- One element of a JSON string. -/
inductive Glyph where
  /-- A character of Unicode. -/
  | char (c : Char)
  /-- The surrogate `0xd800 + half`, standing alone. -/
  | surrogate (half : Fin 0x800)
  deriving DecidableEq, Repr

/-- The character that an element is. -/
def Glyph.char? : Glyph → Option Char
  | .char c => some c
  | .surrogate _ => none

/-- The contents of a JSON string. -/
abbrev Text := List Glyph

namespace Text

def ofString (s : String) : Text :=
  s.toList.map Glyph.char

end Text

end Json

/-- A JSON value. -/
inductive Json where
  | null
  | bool (b : Bool)
  | int (n : Int)
  | real (x : Number.Binary64)
  | string (t : Json.Text)
  | array (items : List Json)
  | object (fields : List (Json.Text × Json))
  deriving Repr, Inhabited

namespace Json

mutual

/-- Whether two values are the same, field order included. -/
def same : Json → Json → Bool
  | .null, .null => true
  | .bool a, .bool b => a == b
  | .int a, .int b => a == b
  | .real a, .real b => a == b
  | .string a, .string b => a == b
  | .array a, .array b => sameItems a b
  | .object a, .object b => sameFields a b
  | _, _ => false

def sameItems : List Json → List Json → Bool
  | [], [] => true
  | a :: as, b :: bs => same a b && sameItems as bs
  | _, _ => false

def sameFields : List (Text × Json) → List (Text × Json) → Bool
  | [], [] => true
  | (k, a) :: as, (l, b) :: bs => k == l && same a b && sameFields as bs
  | _, _ => false

end

instance : BEq Json := ⟨same⟩

/-- A string value. -/
def text (s : String) : Json :=
  .string (.ofString s)

/-- The value of a key among fields. -/
def lookup (fields : List (Text × Json)) (key : String) : Option Json :=
  (fields.find? fun field => field.1 == Text.ofString key).map (·.2)

/-- Fields with a key set to a value: in its old place if the key is there, else at the end. -/
def setField (fields : List (Text × Json)) (key : Text) (value : Json) : List (Text × Json) :=
  match fields with
  | [] => [(key, value)]
  | (k, v) :: rest =>
    if k = key then (k, value) :: rest else (k, v) :: setField rest key value

end Json

end GlobalMap
