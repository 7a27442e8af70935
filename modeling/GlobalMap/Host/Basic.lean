import GlobalMap.Bytes
import GlobalMap.Host.Path
import GlobalMap.Journal.Record
/-!
What the program asks of the machine it runs on: the time, its files, and someone to show records
to.

Every request that may be refused answers with the refusal, so what the program does about it can be
followed in its text.
-/
namespace GlobalMap

/-- Why a request about files was refused. -/
inductive Refusal where
  | notFound
  | notDirectory
  | isDirectory
  | taken
  | nameTooLong
  /-- The path has a null character in it, and so is none. -/
  | nullCharacter
  /-- Something else, in the words of the machine. -/
  | other (reason : String)
  deriving DecidableEq, Repr

namespace Refusal

def message : Refusal → String
  | notFound => "No such file or directory"
  | notDirectory => "Not a directory"
  | isDirectory => "Is a directory"
  | taken => "File exists"
  | nameTooLong => "File name too long"
  | nullCharacter => "embedded null byte"
  | other reason => reason

end Refusal

/-! Permission bits of files. -/

namespace Permission

/-- The bits of a file that its owner alone may use. -/
def ownerOnly : Nat := 0o600

/-- The bits of a new file, less those that new files do not get. -/
def ofNewFile (umask : Nat) : Nat :=
  0o666 &&& (0o777 ^^^ (umask &&& 0o777))

end Permission

/-- What is found at a path. -/
inductive Status where
  | directory
  /-- A file with its permission bits. -/
  | file (mode : Nat)
  deriving DecidableEq, Repr

/-- The machine that the program runs on. -/
class Host (m : Type → Type) where
  /-- The time in nanoseconds since some fixed moment. -/
  now : m Nat
  /-- The time of day as it stands in the names of log files. -/
  stamp : m String
  /-- The value of a variable of the environment. -/
  readVariable : String → m (Option String)
  /-- What is at a path. -/
  status : Path → m (Except Refusal Status)
  /-- The contents of a file. -/
  readFile : Path → m (Except Refusal Bytes)
  /-- Makes a directory and those above it; one that is there already is left alone. -/
  makeDirectories : Path → m (Except Refusal Unit)
  /-- Makes a new, empty file in a directory, with a name of its own between two given texts. -/
  createTemporary : Path → (before after : String) → m (Except Refusal Path)
  /-- Writes the contents of a temporary file. -/
  writeTemporary : Path → Bytes → m (Except Refusal Unit)
  /-- The permission bits that new files do not get. -/
  umask : m Nat
  setMode : Path → Nat → m (Except Refusal Unit)
  /-- Moves a file over whatever file is at another path. -/
  replace : (source target : Path) → m (Except Refusal Unit)
  remove : Path → m (Except Refusal Unit)
  /-- Writes a line that the user asked for. -/
  printOutput : String → m Unit
  /-- Writes a line that the user did not ask for. -/
  printError : String → m Unit
  /-- Shows records from a level on to the user from now on. -/
  showRecords : Level → m Unit
  /-- Writes all records to a file from now on. -/
  keepRecords : Path → m (Except Refusal Unit)
  /-- Shows and writes no more records. -/
  dropRecords : m Unit
  /-- Hands in a record. -/
  emit : Record → m Unit

namespace Host

variable {m : Type → Type} [Monad m] [Host m]

/-- A program that keeps a state of its own runs on the same machine. -/
instance {σ : Type} : Host (StateT σ m) where
  now := StateT.lift now
  stamp := StateT.lift stamp
  readVariable name := StateT.lift (readVariable name)
  status path := StateT.lift (status path)
  readFile path := StateT.lift (readFile path)
  makeDirectories path := StateT.lift (makeDirectories path)
  createTemporary directory before after := StateT.lift (createTemporary directory before after)
  writeTemporary path contents := StateT.lift (writeTemporary path contents)
  umask := StateT.lift umask
  setMode path mode := StateT.lift (setMode path mode)
  replace source target := StateT.lift (replace source target)
  remove path := StateT.lift (remove path)
  printOutput line := StateT.lift (printOutput line)
  printError line := StateT.lift (printError line)
  showRecords level := StateT.lift (showRecords level)
  keepRecords path := StateT.lift (keepRecords path)
  dropRecords := StateT.lift dropRecords
  emit r := StateT.lift (emit r)

/-- A program that may never end runs on the same machine. -/
instance : Host (OptionT m) where
  now := OptionT.lift now
  stamp := OptionT.lift stamp
  readVariable name := OptionT.lift (readVariable name)
  status path := OptionT.lift (status path)
  readFile path := OptionT.lift (readFile path)
  makeDirectories path := OptionT.lift (makeDirectories path)
  createTemporary directory before after := OptionT.lift (createTemporary directory before after)
  writeTemporary path contents := OptionT.lift (writeTemporary path contents)
  umask := OptionT.lift umask
  setMode path mode := OptionT.lift (setMode path mode)
  replace source target := OptionT.lift (replace source target)
  remove path := OptionT.lift (remove path)
  printOutput line := OptionT.lift (printOutput line)
  printError line := OptionT.lift (printError line)
  showRecords level := OptionT.lift (showRecords level)
  keepRecords path := OptionT.lift (keepRecords path)
  dropRecords := OptionT.lift dropRecords
  emit r := OptionT.lift (emit r)

/-- Hands in a record of a level. -/
def debug (channel text : String) : m Unit :=
  emit ⟨.debug, channel, text⟩

def info (channel text : String) : m Unit :=
  emit ⟨.info, channel, text⟩

def warning (channel text : String) : m Unit :=
  emit ⟨.warning, channel, text⟩

def error (channel text : String) : m Unit :=
  emit ⟨.error, channel, text⟩

/-- What is at a path, if anything is. A path through something that is no directory leads nowhere,
and so does one with a null character in it. -/
def find (path : Path) : m (Except Refusal (Option Status)) := do
  match ← status path with
  | .ok found => return .ok (some found)
  | .error .notFound | .error .notDirectory | .error .nullCharacter => return .ok none
  | .error refusal => return .error refusal

end Host

end GlobalMap
