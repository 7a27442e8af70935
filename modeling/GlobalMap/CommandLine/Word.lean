import GlobalMap.Text.Digit
/-!
The words of a command line.

A word that starts with a dash names options: a name behind two dashes, which may be shortened as
long as only one option starts like it, or letters behind one dash. A value may follow behind `=`
where this comes after the name or the first letter, or directly behind a letter. A word `--` makes
all words behind it plain.
-/
namespace GlobalMap.CommandLine

/-- The options. -/
inductive Choice where
  | help
  | output
  | pretty
  | verbose
  | strict
  | logDirectory
  deriving DecidableEq, Repr

namespace Choice

/-- All options. -/
def all : List Choice :=
  [help, output, pretty, verbose, strict, logDirectory]

/-- The name of an option, as it stands behind two dashes. -/
def name : Choice → String
  | help => "help"
  | output => "output"
  | pretty => "pretty"
  | verbose => "verbose"
  | strict => "strict"
  | logDirectory => "log-dir"

/-- The letter of an option, as it stands behind one dash. -/
def letter? : Choice → Option Char
  | help => some 'h'
  | output => some 'o'
  | pretty => some 'p'
  | verbose => some 'v'
  | strict | logDirectory => none

/-- Whether an option has a value. -/
def takesValue : Choice → Bool
  | output | logDirectory => true
  | help | pretty | verbose | strict => false

/-- The option of a letter. -/
def ofLetter? (c : Char) : Option Choice :=
  all.find? fun choice => choice.letter? == some c

/-- The options whose names begin with a text. -/
def startingWith (text : List Char) : List Choice :=
  all.filter fun choice => text.isPrefixOf choice.name.toList

end Choice

/-- A command line that cannot be used. -/
inductive Misuse where
  /-- Several options begin like this. -/
  | ambiguous (word : String)
  /-- Behind an option without a value stands something that is no option. -/
  | needlessValue (choice : Choice)
  /-- An option with a value is given none. -/
  | missingValue (choice : Choice)
  /-- A word has no place on the command line. -/
  | unrecognized
  deriving DecidableEq, Repr

/-- The options that one word names. -/
structure Group where
  /-- Those without a value, in their order. -/
  switches : List Choice := []
  /-- The one with a value at the end, with that value if the word holds it. -/
  valued : Option (Choice × Option String) := none
  deriving DecidableEq, Repr

/-- A word by what it may be used for. -/
inductive Word where
  | plain (text : String)
  /-- The word that makes all words behind it plain. -/
  | divider
  | group (options : Except Misuse Group)
  | strange
  deriving Repr

/-- An option with nothing behind it in its word. -/
def Group.alone (choice : Choice) : Group :=
  if choice.takesValue then { valued := some (choice, none) } else { switches := [choice] }

/-- The options named by a letter and the text behind it. That text is the value of an option that
has one; behind one that has none it must begin with the letter of the next. -/
def readLetters (choice : Choice) (text : List Char) : Except Misuse Group :=
  if choice.takesValue then .ok { valued := some (choice, some (String.ofList text)) }
  else
    match text with
    | [] => .error (.needlessValue choice)
    | c :: rest =>
      match Choice.ofLetter? c with
      | none => .error (.needlessValue choice)
      | some next => do
        let more ← if rest = [] then .ok (.alone next) else readLetters next rest
        return { more with switches := choice :: more.switches }

/-- The options of a word that begins with a letter. An equals sign behind that first letter is not
part of the text behind it. -/
def readCluster (choice : Choice) : List Char → Except Misuse Group
  | [] => .ok (.alone choice)
  | '=' :: text => readLetters choice text
  | text => readLetters choice text

/-- The option named by a name and the value behind it, if there is one. -/
def readName (choice : Choice) (value : Option String) : Except Misuse Group :=
  if choice.takesValue then .ok { valued := some (choice, value) }
  else if value.isSome then .error (.needlessValue choice)
  else .ok { switches := [choice] }

/-- A text in front of an equals sign and, if there is one, that behind it. -/
def splitValue (text : List Char) : List Char × Option String :=
  match text.span (· != '=') with
  | (name, '=' :: value) => (name, some (String.ofList value))
  | (name, _) => (name, none)

/-- Whether a text behind a dash makes a negative number: digits, perhaps with a point before the
last of them, and perhaps a line feed at the end. -/
def isNumber (text : List Char) : Bool :=
  match text.dropWhile Text.isDigit with
  | [] | ['\n'] => text.head?.any Text.isDigit
  | '.' :: fraction =>
    fraction.head?.any Text.isDigit && [[], ['\n']].contains (fraction.dropWhile Text.isDigit)
  | _ => false

/-- What a word that names no option is: a number or a text with a space in it is plain. -/
def otherWord (word : List Char) : Word :=
  if isNumber (word.drop 1) || word.contains ' ' then .plain (String.ofList word) else .strange

/-- What a word is in front of a divider. -/
def readWord (word : String) : Except Misuse Word :=
  match word.toList with
  | '-' :: '-' :: rest =>
    let (name, value) := splitValue rest
    match Choice.startingWith name with
    | [] => .ok (otherWord word.toList)
    | [choice] => .ok (.group (readName choice value))
    | _ => .error (.ambiguous word)
  | '-' :: c :: rest =>
    match Choice.ofLetter? c with
    | some choice => .ok (.group (readCluster choice rest))
    | none => .ok (otherWord word.toList)
  | _ => .ok (.plain word)

/-- What the words of a command line are. -/
def readWords : List String → Except Misuse (List Word)
  | [] => .ok []
  | word :: rest =>
    if word = "--" then .ok (.divider :: rest.map .plain)
    else do
      let first ← readWord word
      return first :: (← readWords rest)

end GlobalMap.CommandLine
