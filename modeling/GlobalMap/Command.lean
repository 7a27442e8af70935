import GlobalMap.CommandLine.Usage
import GlobalMap.Journal.Logging
import GlobalMap.Session.Mapping
import GlobalMap.Session.Reading
import GlobalMap.Settings.Loading
/-!
A run of the program, from its command line to its exit status.

The status is 0 when a map file has been written or help was asked for, 2 when the command line
cannot be used, and 1 when anything else fails. A run over debug information that leads around in
circles has no status, since it never ends.
-/
namespace GlobalMap.Command

variable {m : Type → Type} [Monad m] [Host m]

/-- The exit status of a run that fails. -/
def failure : Nat := 1

/-- Answers a command line that gives no settings. -/
def answer : CommandLine.Stop → m Unit
  | .help => CommandLine.help.forM Host.printOutput
  | .misuse reason => do
    Host.printError CommandLine.usage
    Host.printError s!"{CommandLine.programName}: error: {reason.message}"

/-- The settings that a run starts from. -/
def configure (given : Settings) : m (Except Settings.Fault Settings) := do
  match ← Settings.complete given with
  | .error fault => return .error fault
  | .ok settings =>
    match ← settings.check with
    | .error fault => return .error fault
    | .ok () => return .ok settings

/-- Tells why there are no settings to start from. -/
def reportSettings (fault : Settings.Fault) : m Unit :=
  if fault.isInSettings then Host.printError s!"Configuration error: {fault.message}"
  else Host.printError fault.message

/-- Opens a session, writes its map and closes it. -/
def produce (output : Path) (pretty : Bool) :
    InSession m (Except Session.Fault (List MapEntry)) := do
  match ← Session.openFile with
  | .error fault => return .error fault
  | .ok () =>
    let outcome ← Session.write output pretty
    Session.close
    return outcome

/-- Tells why there is no map. -/
def reportFault (fault : Session.Fault) : m Unit :=
  if fault.isReported then Host.error Channel.command s!"Mapping failed: {fault.message}"
  else Host.printError fault.message

/-- Writes the map of one file to another, and answers with the exit status if it ever ends. -/
def mapFile (input output : Path) (settings : Settings) : m (Option Nat) := do
  Host.debug Channel.command s!"Input file: {input.text}"
  Host.debug Channel.command s!"Output file: {output.text}"
  let session ← Session.new input settings.strict
  match ← ((produce output settings.pretty).run session).run with
  | none => return none
  | some (.error fault, _) =>
    reportFault fault
    return some failure
  | some (.ok entries, _) =>
    Host.info Channel.command s!"[SUCCESS] Mapped {entries.length} globals to {output.text}"
    return some 0

/-- Runs the program from complete settings. -/
def runFrom (settings : Settings) : m (Option Nat) := do
  match ← Logging.setUp {} settings.logDirectory settings.verbose with
  | (.error refusal, _) =>
    Host.printError refusal.message
    return some failure
  | (.ok (), _) =>
    match settings.input, settings.output with
    | some input, some output => mapFile input output settings
    | _, _ => return some failure

/-- Runs the program with the words of its command line, and answers with its exit status if it ever
ends. -/
def run (words : List String) : m (Option Nat) := do
  match CommandLine.read words with
  | .error stop =>
    answer stop
    return some stop.status
  | .ok given =>
    match ← configure given with
    | .error fault =>
      reportSettings fault
      return some failure
    | .ok settings => runFrom settings

end GlobalMap.Command
