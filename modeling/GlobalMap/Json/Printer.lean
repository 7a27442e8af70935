import GlobalMap.Json.Basic
import GlobalMap.Number.Decimal
import GlobalMap.Text.Hex
/-!
The text of JSON values, in ASCII.

A string is written with every character outside the printable ASCII range escaped, by a short form
where JSON has one and by its UTF-16 units otherwise. A document is written without blanks, or with
one item or field a line and two blanks of indentation for each level; empty arrays and objects stay
on one line. A document with a whole number of too many digits is not written at all.
-/
namespace GlobalMap.Json

/-- How a document is laid out. -/
inductive Layout where
  /-- No blanks at all. -/
  | compact
  /-- One item or field a line. -/
  | indented
  deriving DecidableEq, Repr

/-- The hexadecimal digit of a number below sixteen. -/
def hexDigit (n : Nat) : Char :=
  Nat.digitChar (n % 16)

/-- A UTF-16 unit by its number. -/
def unitEscape (n : Nat) : List Char :=
  ['\\', 'u', hexDigit (n / 4096), hexDigit (n / 256), hexDigit (n / 16), hexDigit n]

/-- A character by its UTF-16 units. -/
def charEscape (c : Char) : List Char :=
  if c.toNat < 0x10000 then unitEscape c.toNat
  else
    unitEscape (0xd800 + (c.toNat - 0x10000) / 0x400) ++
      unitEscape (0xdc00 + (c.toNat - 0x10000) % 0x400)

/-- One element of a string, as it stands between the quotes. -/
def Glyph.render : Glyph → List Char
  | .surrogate half => unitEscape (0xd800 + half.val)
  | .char c =>
    if c = '"' then ['\\', '"']
    else if c = '\\' then ['\\', '\\']
    else if c = '\n' then ['\\', 'n']
    else if c = '\r' then ['\\', 'r']
    else if c = '\t' then ['\\', 't']
    else if c = '\x08' then ['\\', 'b']
    else if c = '\x0c' then ['\\', 'f']
    else if ' ' ≤ c ∧ c ≤ '~' then [c]
    else charEscape c

/-- A string between its quotes. -/
def Text.render (t : Text) : List Char :=
  '"' :: t.flatMap Glyph.render ++ ['"']

/-- The decimal text of a whole number, however many digits that takes. -/
def intText (n : Int) : List Char :=
  if n < 0 then '-' :: Nat.toDigits 10 n.natAbs else Nat.toDigits 10 n.natAbs

/-- What separates a bracket or comma from what follows it at a level. -/
def Layout.gap (layout : Layout) (level : Nat) : List Char :=
  match layout with
  | .compact => []
  | .indented => '\n' :: List.replicate (2 * level) ' '

/-- What separates a key from its value. -/
def Layout.colon : Layout → List Char
  | .compact => [':']
  | .indented => [':', ' ']

mutual

/-- The text of a value that stands at a level. -/
def render (layout : Layout) (level : Nat) : Json → List Char
  | .null => ['n', 'u', 'l', 'l']
  | .bool true => ['t', 'r', 'u', 'e']
  | .bool false => ['f', 'a', 'l', 's', 'e']
  | .int n => intText n
  | .real x => x.render
  | .string t => t.render
  | .array [] => ['[', ']']
  | .array (item :: rest) =>
    '[' :: layout.gap (level + 1) ++ render layout (level + 1) item ++
      renderItems layout (level + 1) rest ++ layout.gap level ++ [']']
  | .object [] => ['{', '}']
  | .object ((key, value) :: rest) =>
    '{' :: layout.gap (level + 1) ++ key.render ++ layout.colon ++
      render layout (level + 1) value ++
      renderFields layout (level + 1) rest ++ layout.gap level ++ ['}']

/-- The items of an array behind its first one, each with the comma in front. -/
def renderItems (layout : Layout) (level : Nat) : List Json → List Char
  | [] => []
  | item :: rest =>
    ',' :: layout.gap level ++ render layout level item ++ renderItems layout level rest

/-- The fields of an object behind its first one, each with the comma in front. -/
def renderFields (layout : Layout) (level : Nat) : List (Text × Json) → List Char
  | [] => []
  | (key, value) :: rest =>
    ',' :: layout.gap level ++ key.render ++ layout.colon ++ render layout level value ++
      renderFields layout level rest

end

mutual

/-- Whether a whole number in a value has too many digits to be written. -/
def hasOverlong : Json → Bool
  | .int n => Number.isOverlong n
  | .array items => hasOverlongItem items
  | .object fields => hasOverlongField fields
  | _ => false

def hasOverlongItem : List Json → Bool
  | [] => false
  | item :: rest => hasOverlong item || hasOverlongItem rest

def hasOverlongField : List (Text × Json) → Bool
  | [] => false
  | (_, value) :: rest => hasOverlong value || hasOverlongField rest

end

/-- The text of a document, if none of its whole numbers has too many digits. -/
def print (layout : Layout) (document : Json) : Except Number.Overlong String :=
  if document.hasOverlong then .error {} else .ok (String.ofList (render layout 0 document))

theorem toList_of_print {layout : Layout} {document : Json} {text : String}
    (printed : print layout document = .ok text) : text.toList = render layout 0 document := by
  unfold print at printed
  split at printed
  · cases printed
  · cases printed
    exact String.toList_ofList

end GlobalMap.Json
