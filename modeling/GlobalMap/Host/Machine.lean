import GlobalMap.Host.Basic
import GlobalMap.Text.Hex
import Std.Data.ExtTreeMap
/-!
A machine held in memory.

Its files are a finite map from places, the names on the way from the root, to directories and
files. It refuses what a real machine refuses, and whatever else it is told to refuse, so that the
program can be followed through any failure.
-/
namespace GlobalMap

/-- What stands at a place. -/
inductive Node where
  | directory
  | file (contents : Bytes) (mode : Nat)
  deriving DecidableEq, Repr

/-- The files of a machine by their places. -/
abbrev FileTree := Std.ExtTreeMap (List String) Node

/-- A request that a machine can be told to refuse. -/
inductive Request where
  | createTemporary
  | writeTemporary
  | status
  | setMode
  | replace
  deriving DecidableEq, Repr

/-- The state of a machine. -/
structure Machine where
  files : FileTree := (∅ : FileTree).insert [] .directory
  workingDirectory : List String := []
  environment : List (String × String) := []
  clock : Nat := 0
  umask : Nat := 0o022
  /-- The requests that are refused. -/
  refuses : Request → Bool := fun _ => false
  /-- How many bytes are written before writing a temporary file is refused. -/
  refusesAfter : Nat := 0
  /-- All records handed in so far. -/
  records : List Record := []
  /-- The level from which on records are shown. -/
  shown : Option Level := none
  /-- The place of the file that records are written to. -/
  kept : Option (List String) := none
  /-- The lines that the user asked for. -/
  output : List String := []
  /-- The lines shown besides. -/
  console : List String := []

namespace Machine

/-- The longest name that a place may have, in bytes. -/
def maxNameSize : Nat := 255

/-- The time of day is always the same. -/
def fixedStamp : String := "20000101_000000"

def fixedTime : String := "2000-01-01 00:00:00"

/-- The place that a name leads to from another place. -/
def step (files : FileTree) (place : List String) (name : String) :
    Except Refusal (List String) :=
  match files[place]? with
  | none => .error .notFound
  | some (.file _ _) => .error .notDirectory
  | some .directory =>
    if name = ".." then .ok place.dropLast
    else if maxNameSize < name.utf8ByteSize then .error .nameTooLong
    else .ok (place ++ [name])

/-- The place where paths of a root start. -/
def start (m : Machine) : Root → List String
  | .relative => m.workingDirectory
  | .absolute | .doubled => []

/-- Refuses a path with a null character in it. -/
def checkPath (path : Path) : Except Refusal Unit :=
  if path.parts.any fun name => name.toList.contains '\x00' then .error .nullCharacter else .ok ()

/-- The place that a path leads to. All on the way to it must be directories. -/
def place (m : Machine) (path : Path) : Except Refusal (List String) := do
  checkPath path
  path.parts.foldlM (step m.files) (m.start path.root)

/-- What stands at the place that a path leads to. -/
def node (m : Machine) (path : Path) : Except Refusal Node := do
  match m.files[← m.place path]? with
  | some found => .ok found
  | none => .error .notFound

def setNode (m : Machine) (place : List String) (node : Node) : Machine :=
  { m with files := m.files.insert place node }

def statusOf : Node → Status
  | .directory => .directory
  | .file _ mode => .file mode

/-- A file and its place. -/
def fileAt (m : Machine) (path : Path) : Except Refusal (List String × Bytes × Nat) := do
  let place ← m.place path
  match m.files[place]? with
  | some (.file contents mode) => .ok (place, contents, mode)
  | some .directory => .error .isDirectory
  | none => .error .notFound

def readFile (m : Machine) (path : Path) : Except Refusal Bytes := do
  let (_, contents, _) ← m.fileAt path
  return contents

/-- Goes on to a name, making a directory there if nothing is. -/
def enter (row : FileTree × List String) (name : String) :
    Except Refusal (FileTree × List String) := do
  let place ← step row.1 row.2 name
  match row.1[place]? with
  | some .directory => .ok (row.1, place)
  | some (.file _ _) => .error .taken
  | none => .ok (row.1.insert place .directory, place)

def makeDirectories (m : Machine) (path : Path) : Except Refusal Machine := do
  checkPath path
  let (files, _) ← path.parts.foldlM enter (m.files, m.start path.root)
  return { m with files }

/-- A name between two texts that nothing in a directory has. -/
def freshName? (m : Machine) (directory : List String) (before after : String) : Option String :=
  let names := (List.range (m.files.size + 1)).map fun n => before ++ Text.hexPadded 8 n ++ after
  names.find? fun name => !m.files.contains (directory ++ [name])

def createTemporary (m : Machine) (directory : Path) (before after : String) :
    Except Refusal (Path × Machine) := do
  checkPath (directory.child (before ++ after))
  if m.refuses .createTemporary then throw (.other "refused")
  let place ← m.place directory
  match m.freshName? place before after with
  | none => throw .taken
  | some name =>
    let place ← step m.files place name
    return (⟨.absolute, place⟩, m.setNode place (.file [] Permission.ownerOnly))

def writeTemporary (m : Machine) (path : Path) (contents : Bytes) : Except Refusal Machine := do
  if m.refuses .writeTemporary then throw (.other "refused")
  let (place, _, mode) ← m.fileAt path
  return m.setNode place (.file contents mode)

/-- A machine that was writing a temporary file and refused to go on. -/
def breakOff (m : Machine) (path : Path) (contents : Bytes) : Machine :=
  match m.fileAt path with
  | .ok (place, _, mode) => m.setNode place (.file (contents.take m.refusesAfter) mode)
  | .error _ => m

def setMode (m : Machine) (path : Path) (mode : Nat) : Except Refusal Machine := do
  if m.refuses .setMode then throw (.other "refused")
  let (place, contents, _) ← m.fileAt path
  return m.setNode place (.file contents mode)

/-- Where records are written once a file has been moved. They go on to the file that they were
written to: with it, or nowhere when another file takes its place. -/
def keptAfterMove (m : Machine) (origin goal : List String) : Option (List String) :=
  if m.kept = some origin then some goal
  else if m.kept = some goal then none
  else m.kept

def replace (m : Machine) (source target : Path) : Except Refusal Machine := do
  if m.refuses .replace then throw (.other "refused")
  let (origin, contents, mode) ← m.fileAt source
  let goal ← m.place target
  match m.files[goal]? with
  | some .directory => throw .isDirectory
  | _ =>
    return { m with
      files := (m.files.erase origin).insert goal (.file contents mode)
      kept := m.keptAfterMove origin goal }

def remove (m : Machine) (path : Path) : Except Refusal Machine := do
  let (place, _, _) ← m.fileAt path
  return { m with
    files := m.files.erase place
    kept := if m.kept = some place then none else m.kept }

/-- Adds a line to a file. -/
def appendLine (m : Machine) (place : List String) (line : String) : Machine :=
  match m.files[place]? with
  | some (.file contents mode) =>
    m.setNode place (.file (contents ++ (line ++ "\n").toUTF8.toList) mode)
  | _ => m

/-- Opens a file that records are to be written to, making it if it is not there. -/
def keepRecords (m : Machine) (path : Path) : Except Refusal Machine := do
  let place ← m.place path
  match m.files[place]? with
  | some (.file _ _) => return { m with kept := some place }
  | some .directory => throw .isDirectory
  | none =>
    match m.files[place.dropLast]? with
    | some .directory =>
      return { m.setNode place (.file [] (Permission.ofNewFile m.umask)) with kept := some place }
    | _ => throw .notFound

def printError (m : Machine) (line : String) : Machine :=
  { m with console := m.console ++ [line] }

/-- Shows a record where it is to be shown. -/
def showRecord (m : Machine) (r : Record) : Machine :=
  if m.shown.any r.isShown then m.printError r.consoleLine else m

/-- Writes a record where it is to be written. -/
def keepRecord (m : Machine) (r : Record) : Machine :=
  match m.kept with
  | some place => m.appendLine place (r.fileLine fixedTime)
  | none => m

def emit (m : Machine) (r : Record) : Machine :=
  ({ m with records := m.records ++ [r] }.showRecord r).keepRecord r

end Machine

/-- A program that runs on a machine held in memory. -/
abbrev OnMachine := StateM Machine

namespace OnMachine

/-- A request that changes the machine unless it is refused. -/
def request (change : Machine → Except Refusal Machine) : OnMachine (Except Refusal Unit) :=
  fun m => match change m with
  | .ok after => (.ok (), after)
  | .error refusal => (.error refusal, m)

/-- A request that leaves the machine as it is. -/
def ask {α : Type} (answer : Machine → α) : OnMachine α := fun m =>
  (answer m, m)

/-- A request that is never refused. -/
def change (after : Machine → Machine) : OnMachine Unit := fun m =>
  ((), after m)

def status (m : Machine) (path : Path) : Except Refusal Status :=
  if m.refuses .status then .error (.other "refused") else (m.node path).map Machine.statusOf

instance : Host OnMachine where
  now := ask Machine.clock
  stamp := ask fun _ => Machine.fixedStamp
  readVariable name := ask fun m => m.environment.lookup name
  status path := ask fun m => status m path
  readFile path := ask fun m => m.readFile path
  makeDirectories path := request fun m => m.makeDirectories path
  createTemporary directory before after := fun m =>
    match m.createTemporary directory before after with
    | .ok (path, m) => (.ok path, m)
    | .error refusal => (.error refusal, m)
  writeTemporary path contents := fun m =>
    match m.writeTemporary path contents with
    | .ok m => (.ok (), m)
    | .error refusal => (.error refusal, m.breakOff path contents)
  umask := ask Machine.umask
  setMode path mode := request fun m => m.setMode path mode
  replace source target := request fun m => m.replace source target
  remove path := request fun m => m.remove path
  printOutput line := change fun m => { m with output := m.output ++ [line] }
  printError line := change fun m => m.printError line
  showRecords level := change fun m => { m with shown := some level }
  keepRecords path := request fun m => m.keepRecords path
  dropRecords := change fun m => { m with shown := none, kept := none }
  emit r := change fun m => m.emit r

end OnMachine

end GlobalMap
