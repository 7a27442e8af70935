import GlobalMap.Command
import Std.Time
/-!
The program on the machine that it is started on.

The permission bits of a file cannot be asked for here, so a map file that replaces another gets
those of a new file.
-/
namespace GlobalMap

/-- Where records go. -/
structure Console where
  /-- The level from which on records are shown. -/
  shown : Option Level := none
  /-- The open log file. -/
  log : Option IO.FS.Handle := none

/-- Programs that run on this machine. -/
abbrev OnSystem := ReaderT (IO.Ref Console) IO

namespace OnSystem

def refusalOf : IO.Error → Refusal
  | .noFileOrDirectory _ _ _ => .notFound
  | .inappropriateType _ _ _ => .notDirectory
  | .alreadyExists _ _ _ => .taken
  | e => .other (toString e)

/-- Does something that the machine may refuse. -/
def attempt {α : Type} (action : IO α) : OnSystem (Except Refusal α) := fun _ => do
  match ← action.toBaseIO with
  | .ok a => return .ok a
  | .error e => return .error (refusalOf e)

/-- The number that octal digits give. -/
def octal (digits : List Char) : Nat :=
  digits.foldl (fun n c => 8 * n + (c.toNat - '0'.toNat)) 0

/-- The bits that new files do not get, as the system shows them for a process. -/
def maskOf (text : String) : Option Nat :=
  (text.splitOn "\n").findSome? fun line =>
    if line.startsWith "Umask:" then some (octal (line.toList.filter Char.isDigit)) else none

def defaultMask : Nat := 0o022

def mask : IO Nat := do
  match ← (IO.FS.readFile "/proc/self/status").toBaseIO with
  | .ok text => return (maskOf text).getD defaultMask
  | .error _ => return defaultMask

/-- The rights that three permission bits stand for. -/
def rightsOf (bits : Nat) : IO.AccessRight where
  read := bits.testBit 2
  write := bits.testBit 1
  execution := bits.testBit 0

def fileRights (mode : Nat) : IO.FileRight where
  user := rightsOf (mode / 64)
  group := rightsOf (mode / 8)
  other := rightsOf mode

def status (path : Path) : IO Status := do
  let found ← ((← IO.currentDir) / path.text).metadata
  match found.type with
  | .dir => return .directory
  | _ => return .file (Permission.ofNewFile (← mask))

/-- Makes a new file under the first of some names that nothing has. -/
def createFirst (directory : Path) : List String → IO Path
  | [] => throw (IO.userError "No name is left for a temporary file")
  | name :: rest => do
    let path := directory.child name
    match ← (IO.FS.Handle.mk path.text .writeNew).toBaseIO with
    | .ok _ =>
      IO.setAccessRights path.text (fileRights Permission.ownerOnly)
      return path
    | .error (.alreadyExists _ _ _) => createFirst directory rest
    | .error e => throw e

/-- Names between two texts. -/
def temporaryNames (seed : Nat) (before after : String) : List String :=
  (List.range 100).map fun n => before ++ Text.hexPadded 8 ((seed + n) % 0x100000000) ++ after

def timeFormat : String := "uuuu-MM-dd HH:mm:ss"

def stampFormat : String := "uuuuMMdd_HHmmss"

/-- Writes a record to the open log file. -/
def keepRecord (r : Record) (log : IO.FS.Handle) : IO Unit := do
  let time ← Std.Time.PlainDateTime.now
  log.putStrLn (r.fileLine (time.format timeFormat))
  log.flush

def emit (r : Record) : OnSystem Unit := fun console => do
  let now ← console.get
  if now.shown.any r.isShown then IO.eprintln r.consoleLine
  now.log.forM (keepRecord r)

def keepRecords (path : Path) : OnSystem (Except Refusal Unit) := fun console => do
  match ← (IO.FS.Handle.mk path.text .append).toBaseIO with
  | .error e => return .error (refusalOf e)
  | .ok log =>
    console.modify fun c => { c with log := some log }
    return .ok ()

instance : Host OnSystem where
  now := IO.monoNanosNow
  stamp := do return (← Std.Time.PlainDateTime.now).format stampFormat
  readVariable name := IO.getEnv name
  status path := attempt (status path)
  readFile path := attempt do return (← IO.FS.readBinFile path.text).toList
  makeDirectories path := attempt (IO.FS.createDirAll path.text)
  createTemporary directory before after := attempt do
    createFirst directory (temporaryNames (← IO.monoNanosNow) before after)
  writeTemporary path contents := attempt (IO.FS.writeBinFile path.text ⟨contents.toArray⟩)
  umask := mask
  setMode path mode := attempt (IO.setAccessRights path.text (fileRights mode))
  replace source target := attempt (IO.FS.rename source.text target.text)
  remove path := attempt (IO.FS.removeFile path.text)
  printOutput line := IO.println line
  printError line := IO.eprintln line
  showRecords level := fun console => console.modify fun c => { c with shown := some level }
  keepRecords := keepRecords
  dropRecords := fun console => console.set {}
  emit := emit

end OnSystem

end GlobalMap

/-- Runs the program with the words of its command line. A run that never ends goes on until someone
stops it. -/
def main (words : List String) : IO UInt32 := do
  let console ← IO.mkRef {}
  match ← (GlobalMap.Command.run words : GlobalMap.OnSystem (Option Nat)).run console with
  | some status => return UInt32.ofNat status
  | none =>
    repeat IO.sleep 1000
    return 0
