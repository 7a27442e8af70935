import GlobalMap.CommandLine.Word
import GlobalMap.Settings.Basic
/-!
The settings that a command line gives.

Words are taken from left to right. The first plain word is the input file. An option whose value
the word does not hold takes the plain word behind it. What asks for help ends the reading at once,
and so does an option that is not used as it has to be; words without a place do so at the end.
-/
namespace GlobalMap.CommandLine

/-- Why a command line gives no settings. -/
inductive Stop where
  /-- It asks for help. -/
  | help
  | misuse (reason : Misuse)
  deriving DecidableEq, Repr

/-- The exit status of a program that stops at its command line. -/
def Stop.status : Stop → Nat
  | help => 0
  | misuse _ => 2

/-- What has been read of a command line. -/
structure Progress where
  settings : Settings := {}
  /-- Whether the place of the input file is taken. -/
  inputTaken : Bool := false
  /-- Whether there was a word without a place. -/
  strange : Bool := false
  deriving DecidableEq, Repr

namespace Progress

/-- Turns on what an option without a value stands for. -/
def turnOn (p : Progress) : Choice → Except Stop Progress
  | .help => .error .help
  | .pretty => .ok { p with settings := { p.settings with pretty := true } }
  | .verbose => .ok { p with settings := { p.settings with verbose := true } }
  | .strict => .ok { p with settings := { p.settings with strict := true } }
  | .output | .logDirectory => .ok p

/-- Gives an option a value. -/
def assign (p : Progress) (choice : Choice) (value : String) : Progress :=
  match choice with
  | .output => { p with settings := { p.settings with output := some (.ofString value) } }
  | .logDirectory =>
    { p with settings := { p.settings with logDirectory := some (.ofString value) } }
  | .help | .pretty | .verbose | .strict => p

/-- Takes a word as the input file. -/
def takeInput (p : Progress) (text : String) : Progress :=
  { p with settings := { p.settings with input := some (.ofString text) }, inputTaken := true }

/-- Passes a word without a place. -/
def pass (p : Progress) : Progress :=
  { p with strange := true }

/-- Turns on the options of a word that have no value. -/
def turnAllOn (p : Progress) (options : Group) : Except Stop Progress :=
  options.switches.foldlM turnOn p

/-- The settings at the end of a command line. -/
def finish (p : Progress) : Except Stop Settings :=
  if p.strange then .error (.misuse .unrecognized) else .ok p.settings

end Progress

/-- Takes words one after the other. -/
def take (p : Progress) : List Word → Except Stop Settings
  | [] => p.finish
  | .plain text :: rest =>
    if p.inputTaken then take p.pass rest
    else
      match rest with
      | .divider :: rest => take (p.takeInput text) rest
      | rest => take (p.takeInput text) rest
  | .divider :: rest =>
    if p.inputTaken then take p.pass rest
    else
      match rest with
      | .plain text :: rest => take (p.takeInput text) rest
      | rest => take { p with inputTaken := true } rest
  | .strange :: rest => take p.pass rest
  | .group (.error misuse) :: _ => .error (.misuse misuse)
  | .group (.ok options) :: rest =>
    match options.valued, rest with
    | none, rest => do take (← p.turnAllOn options) rest
    | some (choice, some value), rest => do take ((← p.turnAllOn options).assign choice value) rest
    | some (choice, none), .plain value :: rest => do
      take ((← p.turnAllOn options).assign choice value) rest
    | some (choice, none), _ => .error (.misuse (.missingValue choice))

/-- The settings that the words of a command line give. -/
def read (words : List String) : Except Stop Settings := do
  let words ← (readWords words).mapError .misuse
  take {} words

end GlobalMap.CommandLine
