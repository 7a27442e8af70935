import GlobalMap.Text.Hex
import GlobalMap.Text.Printable
import GlobalMap.Bytes
/-!
Quoted forms of text and of byte strings, as messages show them.

The quote is `'`, or `"` when the content holds the first and not the second. Inside, the quote and
the backslash stand behind a backslash, a line feed, carriage return and tab are `\n`, `\r`, `\t`,
and what has no visible form is its number in hexadecimal.
-/
namespace GlobalMap.Text.Quoted

/-- The quote that goes around a content with or without single and double quotes in it. -/
def quoteFor (hasSingle hasDouble : Bool) : Char :=
  if hasSingle && !hasDouble then '"' else '\''

/-- A code point without a visible form: two, four or eight hexadecimal digits. -/
def numbered (n : Nat) : String :=
  if n < 0x100 then "\\x" ++ hexPadded 2 n
  else if n < 0x10000 then "\\u" ++ hexPadded 4 n
  else "\\U" ++ hexPadded 8 n

/-- One character inside a text that stands between `quote`s. -/
def character (quote c : Char) : String :=
  if c = quote ∨ c = '\\' then "\\" ++ c.toString
  else if c = '\n' then "\\n"
  else if c = '\r' then "\\r"
  else if c = '\t' then "\\t"
  else if isPrintable c then c.toString
  else numbered c.toNat

/-- A text between quotes. -/
def text (s : String) : String :=
  let quote := quoteFor (s.toList.contains '\'') (s.toList.contains '"')
  quote.toString ++ String.join (s.toList.map (character quote)) ++ quote.toString

/-- A text that may be absent; an absent one is written `None`. -/
def optional : Option String → String
  | none => "None"
  | some s => text s

/-- One byte inside a byte string that stands between `quote`s. -/
def byte (quote : Char) (b : UInt8) : String :=
  if b < 0x7f then character quote (Char.ofNat b.toNat) else numbered b.toNat

/-- A byte string between quotes, with a `b` in front. -/
def bytes (data : Bytes) : String :=
  let quote := quoteFor (data.contains 0x27) (data.contains 0x22)
  "b" ++ quote.toString ++ String.join (data.map (byte quote)) ++ quote.toString

end GlobalMap.Text.Quoted
