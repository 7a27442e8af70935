import GlobalMap.Host.Path
import GlobalMap.Text.Quoted
/-!
The settings of a run.

Settings come from the command line and from the variables of the environment. A path of the first
comes before one of the second, and a switch is on when either turns it on. A map file that is not
named stands beside the input file, under its name with a suffix.
-/
namespace GlobalMap

/-- The settings of a run. -/
structure Settings where
  /-- The object file to read. -/
  input : Option Path := none
  /-- The map file to write. -/
  output : Option Path := none
  /-- Whether the map file is indented. -/
  pretty : Bool := false
  /-- Whether records of all levels are shown. -/
  verbose : Bool := false
  /-- Whether a run fails when an entry had to be left out. -/
  strict : Bool := false
  /-- The directory that log files go to. -/
  logDirectory : Option Path := none
  deriving DecidableEq, Repr

namespace Settings

/-- The suffix of map files that are not named. -/
def outputSuffix : String := ".map.json"

/-- A path without a last name, where one is needed. -/
structure Nameless where
  path : Path
  deriving DecidableEq, Repr

def Nameless.message (n : Nameless) : String :=
  s!"PosixPath({Text.Quoted.text n.path.text}) has an empty name"

/-- The map file for an input file when none is named. -/
def defaultOutput (input : Path) : Except Nameless Path :=
  match input.addSuffix? outputSuffix with
  | some path => .ok path
  | none => .error ⟨input⟩

/-! ## The variables of the environment -/

def inputVariable : String := "MAPPER_INPUT_PATH"
def outputVariable : String := "MAPPER_OUTPUT_PATH"
def prettyVariable : String := "MAPPER_PRETTY"
def verboseVariable : String := "MAPPER_VERBOSE"
def strictVariable : String := "MAPPER_STRICT"
def logDirectoryVariable : String := "MAPPER_LOG_DIR"

/-- All variables that settings come from. -/
def variableNames : List String :=
  [inputVariable, outputVariable, prettyVariable, verboseVariable, strictVariable,
    logDirectoryVariable]

/-- The values that turn a switch on, in lower case. -/
def trueWords : List String :=
  ["true", "1", "yes", "on"]

/-- Whether a value turns a switch on, in capitals or not. -/
def isTrue (value : String) : Bool :=
  trueWords.contains (String.ofList (value.toList.map Char.toLower))

/-- The variable that turns files of variables off. -/
def offVariable : String := "PYTHON_DOTENV_DISABLED"

/-- The values that turn files of variables off, in lower case. -/
def offWords : List String :=
  ["1", "true", "t", "yes", "y"]

/-- A letter without regard to its case. The long s is one of the forms of the letter s. -/
def foldCase (c : Char) : Char :=
  if c = '\u017f' then 's' else c.toLower

/-- Whether a value turns files of variables off, in whatever case it is written. -/
def isOff (value : String) : Bool :=
  offWords.contains (String.ofList (value.toList.map foldCase))

/-- The path that a variable names; an empty value names none. -/
def pathOf (value : Option String) : Option Path :=
  (value.filter fun text => text != "").map Path.ofString

/-- The settings that variables give. -/
def ofVariables (value? : String → Option String) : Settings where
  input := pathOf (value? inputVariable)
  output := pathOf (value? outputVariable)
  pretty := (value? prettyVariable).any isTrue
  verbose := (value? verboseVariable).any isTrue
  strict := (value? strictVariable).any isTrue
  logDirectory := pathOf (value? logDirectoryVariable)

/-! ## Settings together -/

/-- Settings with others behind them for what they leave open. -/
def or (first second : Settings) : Settings where
  input := first.input.or second.input
  output := first.output.or second.output
  pretty := first.pretty || second.pretty
  verbose := first.verbose || second.verbose
  strict := first.strict || second.strict
  logDirectory := first.logDirectory.or second.logDirectory

/-- Settings with a map file wherever there is an input file. -/
def completed (s : Settings) : Except Nameless Settings :=
  match s.output, s.input with
  | none, some input => (defaultOutput input).map fun output => { s with output := some output }
  | _, _ => .ok s

end Settings

end GlobalMap
