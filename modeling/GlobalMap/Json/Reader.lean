import GlobalMap.Json.Basic
import GlobalMap.Number.Decimal
/-!
Reading JSON text, strictly.

The reader is a machine that takes one character at a time (`Reader.step`). It holds the arrays and
objects that are still open, innermost first, and what it expects next. A text is a document when
the machine takes all of its characters and ends with one complete value and nothing open.

Besides the numbers of the standard, `NaN`, `Infinity` and `-Infinity` are read. When a key comes
twice in an object, the last value wins and stands in the first one's place. A whole number with too
many digits ends the reading where it stands, whatever follows it.
-/
namespace GlobalMap.Json

/-- Why a text cannot be read. -/
inductive Fault where
  /-- The text is not a JSON document. -/
  | malformed
  /-- A whole number has too many digits. -/
  | overlong (number : Number.Overlong)
  deriving DecidableEq, Repr

/-- A result that is there, or the fault that the text is no document. -/
def orMalformed {α : Type} : Option α → Except Fault α
  | some a => .ok a
  | none => .error .malformed

namespace Reader

/-- An array or object that is still open. -/
inductive Frame where
  /-- The items read so far, last first. -/
  | array (items : List Json)
  /-- The fields read so far, and the key whose value comes next. -/
  | object (fields : List (Text × Json)) (key : Text)

/-- What a string is read for. -/
inductive Role where
  | value
  /-- A key of an object with these fields so far. -/
  | key (fields : List (Text × Json))

/-- Where inside a string the machine is. -/
inductive Escape where
  /-- Between characters. -/
  | none
  /-- Behind a backslash. -/
  | backslash
  /-- Behind `\u`, with the digits read so far and their number. -/
  | digits (count value : Nat)

/-- What the machine is doing. -/
inductive Mode where
  /-- A value must come. -/
  | value
  /-- An array was opened: a value or the closing bracket must come. -/
  | firstItem
  /-- An object was opened: a key or the closing brace must come. -/
  | firstKey
  /-- A comma was read in an object with these fields: a key must come. -/
  | key (fields : List (Text × Json))
  /-- A key was read in an object with these fields: a colon must come. -/
  | colon (fields : List (Text × Json)) (key : Text)
  /-- A value was read in an array with these items: a comma or the closing bracket must come. -/
  | afterItem (items : List Json)
  /-- A value was read in an object with these fields: a comma or the closing brace must come. -/
  | afterField (fields : List (Text × Json))
  /-- Inside a string; its contents so far, last first, where a code unit stands for its half of a
  pair. -/
  | string (role : Role) (contents : Text) (escape : Escape)
  /-- Inside a number or a word; its characters so far, last first. -/
  | word (letters : List Char)
  /-- The document is complete. -/
  | done (document : Json)

/-- A state of the machine. -/
structure State where
  frames : List Frame
  mode : Mode

/-- The state behind a complete value. -/
def deliver (frames : List Frame) (value : Json) : State :=
  match frames with
  | [] => ⟨[], .done value⟩
  | .array items :: rest => ⟨rest, .afterItem (value :: items)⟩
  | .object fields key :: rest => ⟨rest, .afterField (setField fields key value)⟩

/-- Blanks between the parts of a document. -/
def isBlank (c : Char) : Bool :=
  c = ' ' || c = '\t' || c = '\n' || c = '\r'

/-- The value of a hexadecimal digit of either case. -/
def hexValue? (c : Char) : Option Nat :=
  if '0' ≤ c ∧ c ≤ '9' then some (c.toNat - '0'.toNat)
  else if 'a' ≤ c ∧ c ≤ 'f' then some (c.toNat - 'a'.toNat + 10)
  else if 'A' ≤ c ∧ c ≤ 'F' then some (c.toNat - 'A'.toNat + 10)
  else none

/-- The character that a backslash and a letter stand for. -/
def shortEscape? (c : Char) : Option Char :=
  match c with
  | '"' => some '"'
  | '\\' => some '\\'
  | '/' => some '/'
  | 'b' => some '\x08'
  | 'f' => some '\x0c'
  | 'n' => some '\n'
  | 'r' => some '\r'
  | 't' => some '\t'
  | _ => none

/-- The element that an escaped UTF-16 unit is when it stands alone. -/
def unitGlyph (unit : Nat) : Glyph :=
  if 0xd800 ≤ unit ∧ unit < 0xe000 then .surrogate (Fin.ofNat 0x800 (unit - 0xd800))
  else .char (Char.ofNat unit)

/-- Contents, last first, with an escaped UTF-16 unit behind them. The second half of a pair joins
the first half before it, if that one was escaped as well. -/
def pushUnit (contents : Text) (unit : Nat) : Text :=
  match contents with
  | .surrogate half :: rest =>
    if half.val < 0x400 ∧ 0xdc00 ≤ unit ∧ unit < 0xe000 then
      .char (Char.ofNat (0x10000 + half.val * 0x400 + (unit - 0xdc00))) :: rest
    else unitGlyph unit :: contents
  | _ => unitGlyph unit :: contents

/-- The value of decimal digits. -/
def decimal (digits : List Char) : Nat :=
  digits.foldl (fun n c => 10 * n + (c.toNat - '0'.toNat)) 0

/-- Digits of a whole part: `0`, or digits that do not start with it. -/
def isWhole (digits : List Char) : Bool :=
  match digits with
  | [] => false
  | ['0'] => true
  | c :: _ => c != '0'

/-- The power of ten that the end of a number states, if it is well formed. -/
def exponent? : List Char → Option Int
  | [] => some 0
  | e :: rest =>
    if e ≠ 'e' ∧ e ≠ 'E' then none
    else
      let (negative, digits) := match rest with
        | '-' :: digits => (true, digits)
        | '+' :: digits => (false, digits)
        | digits => (false, digits)
      if digits.isEmpty || !digits.all Char.isDigit then none
      else some (if negative then -(decimal digits : Int) else decimal digits)

/-- The number that characters spell without a sign in front. -/
def unsigned? (negative : Bool) (letters : List Char) : Option Json :=
  let whole := letters.takeWhile Char.isDigit
  if !isWhole whole then none
  else
    match letters.dropWhile Char.isDigit with
    | [] => some (.int (if negative then -(decimal whole : Int) else decimal whole))
    | '.' :: rest =>
      let fraction := rest.takeWhile Char.isDigit
      if fraction.isEmpty then none
      else (exponent? (rest.dropWhile Char.isDigit)).map fun power =>
        .real (.ofDecimal negative (decimal (whole ++ fraction)) (power - fraction.length))
    | rest => (exponent? rest).map fun power => .real (.ofDecimal negative (decimal whole) power)

/-- The value that the characters of a number or word spell. -/
def spelled? (letters : List Char) : Option Json :=
  if letters = ['n', 'u', 'l', 'l'] then some .null
  else if letters = ['t', 'r', 'u', 'e'] then some (.bool true)
  else if letters = ['f', 'a', 'l', 's', 'e'] then some (.bool false)
  else if letters = "NaN".toList then some (.real .nan)
  else if letters = "Infinity".toList then some (.real (.infinite false))
  else if letters = "-Infinity".toList then some (.real (.infinite true))
  else
    match letters with
    | '-' :: rest => unsigned? true rest
    | _ => unsigned? false letters

/-- Whether a fraction or a power of ten follows the whole part of a number. -/
def goesOn (letters : List Char) : Bool :=
  let digits := match letters with
    | '.' :: rest => rest
    | 'e' :: '+' :: rest | 'e' :: '-' :: rest | 'e' :: rest => rest
    | 'E' :: '+' :: rest | 'E' :: '-' :: rest | 'E' :: rest => rest
    | _ => []
  (digits.head?.map Char.isDigit).getD false

/-- The whole number that stands at the front of some characters, if it has too many digits. What
stands behind it need not belong to a number. -/
def overlong? (letters : List Char) : Option Number.Overlong :=
  let whole := letters.takeWhile Char.isDigit
  if isWhole whole ∧ Number.maxDigits < whole.length ∧
      ¬goesOn (letters.dropWhile Char.isDigit) then
    some ⟨some whole.length⟩
  else none

/-- The characters of a number behind its sign. -/
def withoutSign : List Char → List Char
  | '-' :: rest => rest
  | letters => letters

/-- The value of the characters of a number or word. -/
def valueOf (letters : List Char) : Except Fault Json :=
  match overlong? (withoutSign letters) with
  | some number => .error (.overlong number)
  | none => orMalformed (spelled? letters)

/-- Characters that numbers and words consist of. -/
def isWordChar (c : Char) : Bool :=
  c.isAlphanum || c = '-' || c = '+' || c = '.'

/-- What a character does where a value may start. -/
def startValue (frames : List Frame) (c : Char) : Option State :=
  if c = '[' then some ⟨frames, .firstItem⟩
  else if c = '{' then some ⟨frames, .firstKey⟩
  else if c = '"' then some ⟨frames, .string .value [] .none⟩
  else if isWordChar c then some ⟨frames, .word [c]⟩
  else none

/-- What a character does between the parts of a document, where no string or word is open. -/
def between (frames : List Frame) (mode : Mode) (c : Char) : Option State :=
  match mode with
  | .value => startValue frames c
  | .firstItem =>
    if c = ']' then some (deliver frames (.array [])) else startValue (.array [] :: frames) c
  | .firstKey =>
    if c = '}' then some (deliver frames (.object []))
    else if c = '"' then some ⟨frames, .string (.key []) [] .none⟩
    else none
  | .key fields => if c = '"' then some ⟨frames, .string (.key fields) [] .none⟩ else none
  | .colon fields key => if c = ':' then some ⟨.object fields key :: frames, .value⟩ else none
  | .afterItem items =>
    if c = ',' then some ⟨.array items :: frames, .value⟩
    else if c = ']' then some (deliver frames (.array items.reverse))
    else none
  | .afterField fields =>
    if c = ',' then some ⟨frames, .key fields⟩
    else if c = '}' then some (deliver frames (.object fields))
    else none
  | _ => none

/-- What the closing quote of a string does. -/
def closeString (frames : List Frame) (role : Role) (contents : Text) : State :=
  match role with
  | .value => deliver frames (.string contents.reverse)
  | .key fields => ⟨frames, .colon fields contents.reverse⟩

/-- What a character does inside a string. -/
def inString (frames : List Frame) (role : Role) (contents : Text) (escape : Escape) (c : Char) :
    Option State :=
  match escape with
  | .none =>
    if c = '"' then some (closeString frames role contents)
    else if c = '\\' then some ⟨frames, .string role contents .backslash⟩
    else if c < ' ' then none
    else some ⟨frames, .string role (.char c :: contents) .none⟩
  | .backslash =>
    if c = 'u' then some ⟨frames, .string role contents (.digits 0 0)⟩
    else (shortEscape? c).map fun e => ⟨frames, .string role (.char e :: contents) .none⟩
  | .digits count value =>
    (hexValue? c).map fun digit =>
      let value := 16 * value + digit
      if count = 3 then ⟨frames, .string role (pushUnit contents value) .none⟩
      else ⟨frames, .string role contents (.digits (count + 1) value)⟩

/-- The state behind the end of a number or word. -/
def endWord (s : State) : Except Fault State :=
  match s.mode with
  | .word letters => (valueOf letters.reverse).map (deliver s.frames)
  | _ => .ok s

/-- What a character does outside strings and words. -/
def stepBetween (s : State) (c : Char) : Option State :=
  if isBlank c then some s else between s.frames s.mode c

/-- One character. -/
def step (s : State) (c : Char) : Except Fault State :=
  match s.mode with
  | .string role contents escape => orMalformed (inString s.frames role contents escape c)
  | .word letters =>
    if isWordChar c then .ok ⟨s.frames, .word (c :: letters)⟩
    else do orMalformed (stepBetween (← endWord s) c)
  | _ => orMalformed (stepBetween s c)

/-- The state before the first character. -/
def start : State := ⟨[], .value⟩

/-- The document that a final state holds. -/
def finish (s : State) : Except Fault Json := do
  match (← endWord s).mode with
  | .done document => return document
  | _ => throw .malformed

end Reader

/-- The value that a text holds. -/
def parse (text : String) : Except Fault Json := do
  Reader.finish (← text.toList.foldlM Reader.step Reader.start)

end GlobalMap.Json
