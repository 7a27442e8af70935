import GlobalMap.Host.Basic
import GlobalMap.Settings.Basic
import GlobalMap.Settings.EnvironmentFile
import GlobalMap.Text.Utf8
/-!
Where settings are found, and whether a run can start from them.

A variable that a file assigns counts only where the environment has none of that name, not even an
empty one. One variable of the environment turns files of variables off altogether.
-/
namespace GlobalMap

namespace EnvironmentFile

/-- Why a variable cannot be set. -/
inductive Unsettable where
  | nullCharacter
  | equalsSign
  deriving DecidableEq, Repr

def Unsettable.message : Unsettable → String
  | nullCharacter => "embedded null byte"
  | equalsSign => "illegal environment variable name"

/-- The value that assignments give a variable, if the last one does. -/
def valueOf (resolved : List Assignment) (name : String) : Option String :=
  (last? resolved name).bind Assignment.value

/-- The variables of a process together with those that assignments add. -/
def effective (process : String → Option String) (resolved : List Assignment) (name : String) :
    Option String :=
  (process name).or (valueOf resolved name)

/-- Why a variable cannot be set to a value. -/
def unsettableAs (name value : String) : Option Unsettable :=
  if name.toList.contains '\x00' || value.toList.contains '\x00' then some .nullCharacter
  else if name.toList.contains '=' then some .equalsSign
  else none

/-- Why one of the variables that would be added cannot be set. -/
def unsettable? (process : String → Option String) (resolved : List Assignment) :
    Option Unsettable :=
  resolved.findSome? fun a =>
    if (process a.name).isSome then none
    else (valueOf resolved a.name).bind (unsettableAs a.name)

end EnvironmentFile

namespace Settings

/-- Why there are no settings to start from. -/
inductive Fault where
  /-- The file of variables is not UTF-8. -/
  | notText (damage : Text.Utf8.Damage)
  | unsettable (reason : EnvironmentFile.Unsettable)
  | nameless (reason : Nameless)
  | noInput
  | inputNotFound (path : Path)
  | inputNotFile (path : Path)
  | outputIsDirectory (path : Path)
  /-- The machine refused to look at a file. -/
  | refused (refusal : Refusal)
  deriving DecidableEq, Repr

namespace Fault

def message : Fault → String
  | notText damage => damage.message
  | unsettable reason => reason.message
  | nameless reason => reason.message
  | noInput => "No input file given"
  | inputNotFound path => s!"Input file not found: {path.text}"
  | inputNotFile path => s!"Not a file: {path.text}"
  | outputIsDirectory path => s!"Output path is a directory: {path.text}"
  | refused refusal => refusal.message

/-- Whether the fault lies in the settings and not in the machine. -/
def isInSettings : Fault → Bool
  | refused _ => false
  | _ => true

end Fault

/-- The file of variables in the working directory. -/
def environmentFile : Path := ⟨.relative, [".env"]⟩

variable {m : Type → Type} [Monad m] [Host m]

/-- Whether the environment of the process turns files of variables off. -/
def filesAreOff : m Bool := do
  return ((← Host.readVariable offVariable).any isOff)

/-- The assignments of a file; a path that leads to no file has none, and no file has any where
files are turned off. -/
def readAssignments (path : Path) : m (Except Fault (List EnvironmentFile.Assignment)) := do
  match ← Host.find path with
  | .error refusal => return .error (.refused refusal)
  | .ok none | .ok (some .directory) => return .ok []
  | .ok (some (.file _)) =>
    if ← filesAreOff then return .ok []
    else
      match ← Host.readFile path with
      | .error refusal => return .error (.refused refusal)
      | .ok bytes =>
        match Text.Utf8.decode bytes with
        | .error damage => return .error (.notText damage)
        | .ok text => return .ok (EnvironmentFile.read text)

/-- What the environment of the process says about some names. -/
def processVariables (names : List String) : m (String → Option String) := do
  let rows ← names.mapM fun name => do return (name, ← Host.readVariable name)
  return fun name => (rows.lookup name).join

/-- The settings that the environment of the process and a file of variables give.

Assignments of the file count as if they had been made in the environment, but they are not made
there: the environment stays as it was. A run loads its settings once, and nothing reads the
environment after that. -/
def load (path : Path) : m (Except Fault Settings) := do
  match ← readAssignments path with
  | .error fault => return .error fault
  | .ok given =>
    let process ← processVariables (variableNames ++ EnvironmentFile.names given)
    let resolved := EnvironmentFile.resolve process given
    match EnvironmentFile.unsettable? process resolved with
    | some reason => return .error (.unsettable reason)
    | none => return .ok (ofVariables (EnvironmentFile.effective process resolved))

/-- The settings of a run with those given on its command line. Like `load` it leaves the
environment as it was. -/
def complete (given : Settings) : m (Except Fault Settings) := do
  match ← load environmentFile with
  | .error fault => return .error fault
  | .ok found => return (given.or found).completed.mapError .nameless

/-- Whether a path leads to a directory. -/
def isDirectory (path : Path) : m (Except Fault Bool) := do
  match ← Host.find path with
  | .error refusal => return .error (.refused refusal)
  | .ok found => return .ok (found == some .directory)

/-- Checks that the input is a file. -/
def checkInput (path : Path) : m (Except Fault Unit) := do
  match ← Host.find path with
  | .error refusal => return .error (.refused refusal)
  | .ok none => return .error (.inputNotFound path)
  | .ok (some .directory) => return .error (.inputNotFile path)
  | .ok (some (.file _)) => return .ok ()

/-- Checks that the output is not a directory. -/
def checkOutput : Option Path → m (Except Fault Unit)
  | none => return .ok ()
  | some path => do
    match ← isDirectory path with
    | .error fault => return .error fault
    | .ok true => return .error (.outputIsDirectory path)
    | .ok false => return .ok ()

/-- Checks that a run can start from settings. -/
def check (s : Settings) : m (Except Fault Unit) := do
  match s.input with
  | none => return .error .noInput
  | some input =>
    match ← checkInput input with
    | .error fault => return .error fault
    | .ok () => checkOutput s.output

end Settings

end GlobalMap
