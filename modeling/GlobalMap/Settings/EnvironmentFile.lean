import GlobalMap.Text.Blank
import GlobalMap.Text.Lines
/-!
Files of variables.

A line gives a variable a value, `NAME=value`, perhaps with the word `export` in front. A value in
single or double quotes may hold line feeds and escapes; any other runs to the end of its line or to
a comment behind a blank. A line that is none of this counts for nothing, and reading goes on with
the next. A byte order mark in front of the first line is no part of it. In a value `${NAME}` and
`${NAME:-default}` stand for the value of another variable.
-/
namespace GlobalMap.EnvironmentFile

/-- A variable and the value that a line gives it, if it gives one. -/
structure Assignment where
  name : String
  value : Option String
  deriving DecidableEq, Repr

/-! ## Reading -/

/-- Whether a character is blank and does not end the line. -/
def isGap (c : Char) : Bool :=
  Text.isBlank c && c != '\n'

def skipGap (text : List Char) : List Char :=
  text.dropWhile isGap

/-- A step of reading ends in a result and the text behind it, or in the text from where the line
goes wrong. -/
abbrev Step (α : Type) := Except (List Char) (α × List Char)

/-- Skips the word `export` where a gap follows it. -/
def skipExport (text : List Char) : List Char :=
  match text with
  | 'e' :: 'x' :: 'p' :: 'o' :: 'r' :: 't' :: c :: rest => if isGap c then skipGap rest else text
  | _ => text

/-- Whether a character may stand in a name without quotes. -/
def isNameChar (c : Char) : Bool :=
  !(c == '=' || c == '#' || Text.isBlank c)

/-- Reads a name; a comment has none. -/
def readName (text : List Char) : Step (Option String) :=
  match text with
  | '#' :: _ => .ok (none, text)
  | '\'' :: rest =>
    match rest.span (· != '\'') with
    | (c :: name, '\'' :: after) => .ok (some (String.ofList (c :: name)), after)
    | _ => .error text
  | _ =>
    match text.span isNameChar with
    | ([], _) => .error text
    | (name, after) => .ok (some (String.ofList name), after)

/-- What a character behind a backslash stands for between single quotes. -/
def singleEscape? : Char → Option Char
  | '\\' => some '\\'
  | '\'' => some '\''
  | _ => none

/-- What a character behind a backslash stands for between double quotes. -/
def doubleEscape? : Char → Option Char
  | '\\' => some '\\'
  | '\'' => some '\''
  | '"' => some '"'
  | 'a' => some '\x07'
  | 'b' => some '\x08'
  | 'f' => some '\x0c'
  | 'n' => some '\n'
  | 'r' => some '\r'
  | 't' => some '\t'
  | 'v' => some '\x0b'
  | _ => none

/-- The content up to the quote that closes it, with its escapes replaced, and the text behind that
quote. A backslash takes the character behind it along, so neither closes the content; where the two
are no escape, both stay. -/
def closeQuote (quote : Char) (escape? : Char → Option Char) :
    List Char → Option (List Char × List Char)
  | [] => none
  | '\\' :: c :: rest =>
    (closeQuote quote escape? rest).map fun (content, after) =>
      (((escape? c).elim ['\\', c] fun meant => [meant]) ++ content, after)
  | c :: rest =>
    if c = quote then some ([], rest)
    else (closeQuote quote escape? rest).map fun (content, after) => (c :: content, after)

/-- A line up to a comment: a `#` behind a blank, with all blanks before it. -/
def beforeComment : List Char → List Char
  | [] => []
  | c :: rest =>
    if Text.isBlank c && (rest.dropWhile Text.isBlank).head? == some '#' then []
    else c :: beforeComment rest

/-- Reads a value between quotes. -/
def readQuoted (quote : Char) (escape? : Char → Option Char) (text content : List Char) :
    Step String :=
  match closeQuote quote escape? content with
  | some (value, after) => .ok (String.ofList value, after)
  | none => .error text

/-- Reads a value and the gap before it. A comment may follow right behind that gap, and then the
value is empty. -/
def readValue (text : List Char) : Step String :=
  match skipGap text with
  | '\'' :: content => readQuoted '\'' singleEscape? text content
  | '"' :: content => readQuoted '"' doubleEscape? text content
  | _ =>
    let (line, after) := text.span (· != '\n')
    .ok (String.ofList (Text.trimEnd (skipGap (beforeComment line))), after)

/-- Reads a value if there is an equals sign in front of it. -/
def readAssigned (text : List Char) : Step (Option String) :=
  match text with
  | '=' :: rest => (readValue rest).map fun (value, after) => (some value, after)
  | _ => .ok (none, text)

/-- Reads a comment, if there is one, and the end of the line. -/
def readEnd (text : List Char) : Step Unit :=
  let rest :=
    match skipGap text with
    | '#' :: comment => comment.dropWhile (· != '\n')
    | _ => text
  match skipGap rest with
  | [] => .ok ((), [])
  | '\n' :: after => .ok ((), after)
  | _ => .error rest

/-- Reads a line that is not blank. -/
def readLine (text : List Char) : Except (List Char) (Option Assignment × List Char) := do
  let (name, text) ← readName (skipExport text)
  let (value, text) ← readAssigned (skipGap text)
  let ((), text) ← readEnd text
  return (name.map fun name => ⟨name, value⟩, text)

/-- The text behind the end of the line. -/
def afterLine (text : List Char) : List Char :=
  (text.dropWhile (· != '\n')).drop 1

/-- The assignment of the next line, if it has one, and the text behind the line. -/
def next (text : List Char) : Option Assignment × List Char :=
  match readLine text with
  | .ok (assignment, after) => (assignment, after)
  | .error text => (none, afterLine text)

/-- The assignments of a text whose lines end with line feeds. -/
def assignments (text : List Char) : List Assignment :=
  match text.dropWhile Text.isBlank with
  | [] => []
  | line =>
    if (next line).2.length < text.length then (next line).1.toList ++ assignments (next line).2
    else (next line).1.toList
termination_by text.length

/-- A text without the byte order mark that it may start with. -/
def withoutMark : List Char → List Char
  | '\ufeff' :: rest => rest
  | text => text

/-- The assignments of a file, in their order. -/
def read (text : List Char) : List Assignment :=
  assignments (Text.withLineFeeds (withoutMark text))

/-! ## Values of other variables -/

/-- A reference to a variable, behind its `${`: its name, its default, and the text behind it. -/
def reference? (text : List Char) : Option (String × String × List Char) :=
  let name := String.ofList (text.takeWhile fun c => c != '}' && c != ':')
  match text.dropWhile fun c => c != '}' && c != ':' with
  | '}' :: after => some (name, "", after)
  | ':' :: '-' :: rest =>
    match rest.dropWhile (· != '}') with
    | '}' :: after => some (name, String.ofList (rest.takeWhile (· != '}')), after)
    | _ => none
  | _ => none

theorem length_of_reference? {text after : List Char} {name default : String}
    (h : reference? text = some (name, default, after)) : after.length < text.length := by
  have shorter (p : Char → Bool) (l : List Char) : (l.dropWhile p).length ≤ l.length :=
    (List.dropWhile_suffix p).length_le
  have first := shorter (fun c => c != '}' && c != ':') text
  unfold reference? at h
  simp only at h
  split at h
  next rest e =>
    rw [e] at first
    simp only [Option.some.injEq, Prod.mk.injEq] at h
    rw [← h.2.2]
    exact first
  next rest e =>
    rw [e] at first
    have second := shorter (· != '}') rest
    split at h
    next behind e' =>
      rw [e'] at second
      simp only [Option.some.injEq, Prod.mk.injEq] at h
      rw [← h.2.2]
      simp only [List.length_cons] at first second
      omega
    next => exact absurd h (by simp)
  next => exact absurd h (by simp)

/-- A text with the references in it replaced by what a look-up gives for a name; a default stands
in where it gives nothing. -/
def expand (lookup : String → Option String) (text : List Char) : List Char :=
  match text with
  | [] => []
  | '$' :: '{' :: rest =>
    match h : reference? rest with
    | some (name, default, after) =>
      have := length_of_reference? h
      ((lookup name).getD default).toList ++ expand lookup after
    | none => '$' :: expand lookup ('{' :: rest)
  | c :: rest => c :: expand lookup rest
termination_by text.length

/-- The names that a text refers to. -/
def references (text : List Char) : List String :=
  match text with
  | [] => []
  | '$' :: '{' :: rest =>
    match h : reference? rest with
    | some (name, _, after) =>
      have := length_of_reference? h
      name :: references after
    | none => references ('{' :: rest)
  | _ :: rest => references rest
termination_by text.length

/-- The last assignment to a name. -/
def last? (done : List Assignment) (name : String) : Option Assignment :=
  done.reverse.find? fun a => a.name == name

/-- What a reference stands for: a variable of the process or, failing that, one that is assigned
above. One without a value stands for nothing at all. -/
def meaning (process : String → Option String) (done : List Assignment) (name : String) :
    Option String :=
  (process name).or ((last? done name).map fun a => a.value.getD "")

/-- An assignment with the references in its value replaced. -/
def Assignment.expanded (a : Assignment) (lookup : String → Option String) : Assignment :=
  { a with value := a.value.map fun value => String.ofList (expand lookup value.toList) }

/-- Assignments with all references replaced, each by what is known above it. -/
def resolve (process : String → Option String) (given : List Assignment) : List Assignment :=
  given.foldl (fun done a => done ++ [a.expanded (meaning process done)]) []

/-- All names that assignments mention. -/
def names (given : List Assignment) : List String :=
  given.flatMap fun a => a.name :: references ((a.value.getD "").toList)

end GlobalMap.EnvironmentFile
