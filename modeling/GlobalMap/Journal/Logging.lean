import GlobalMap.Host.Basic
/-!
Showing and keeping records.

Once set up, records are shown to the user from a level on, and all of them are written to a file
if a directory for it is given. Setting up a second time does nothing until the first is undone.
-/
namespace GlobalMap

/-- What has been set up. -/
structure Logging where
  initialized : Bool := false
  /-- The level from which on records are shown. -/
  shown : Option Level := none
  /-- Whether records are written to a file. -/
  keeping : Bool := false
  /-- The file for records. -/
  file : Option Path := none
  deriving DecidableEq, Repr

namespace Logging

/-- The level from which on records are shown. -/
def shownLevel (verbose : Bool) : Level :=
  if verbose then .debug else .info

/-- The name of a log file. -/
def fileName (stamp : String) : String :=
  s!"coff_dwarf_mapper_{stamp}.log"

/-- The word for a choice. -/
def word (b : Bool) : String :=
  if b then "True" else "False"

variable {m : Type → Type} [Monad m] [Host m]

/-- Begins to write records to a new file in a directory. -/
def keep (l : Logging) (directory : Path) : m (Except Refusal Unit × Logging) := do
  match ← Host.makeDirectories directory with
  | .error refusal => return (.error refusal, l)
  | .ok () =>
    let file := directory.child (fileName (← Host.stamp))
    let l := { l with file := some file }
    match ← Host.keepRecords file with
    | .error refusal => return (.error refusal, l)
    | .ok () => return (.ok (), { l with keeping := true })

/-- Records what has been set up. -/
def announce (l : Logging) (verbose : Bool) : m Unit := do
  if let some file := l.file then
    Host.debug Channel.logging s!"Logging initialized. Log file: {file.text}"
  Host.debug Channel.logging s!"Verbose mode: {word verbose}"

/-- Sets up showing records, and writing them if there is a directory for that. -/
def setUp (l : Logging) (directory : Option Path) (verbose : Bool) :
    m (Except Refusal Unit × Logging) := do
  if l.initialized then return (.ok (), l)
  Host.dropRecords
  Host.showRecords (shownLevel verbose)
  let l := { l with shown := some (shownLevel verbose), keeping := false }
  let (outcome, l) ← match directory with
    | none => pure (.ok (), l)
    | some directory => l.keep directory
  match outcome with
  | .error refusal => return (.error refusal, l)
  | .ok () =>
    l.announce verbose
    return (.ok (), { l with initialized := true })

/-- Undoes what has been set up. -/
def reset : m Logging := do
  Host.dropRecords
  return {}

end Logging

end GlobalMap
