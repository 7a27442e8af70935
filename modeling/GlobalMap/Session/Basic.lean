import GlobalMap.DebugInfo.Entry
import GlobalMap.Coff.Image
import GlobalMap.Journal.Stage
import GlobalMap.Journal.Tracker
/-!
A session over one object file.

While it is open a session holds the contents of the file, the image read from them, and the debug
information of the image, each taken from the one before. Its progress goes on over all its steps.
A step ends in a result or a fault, or it never ends.
-/
namespace GlobalMap

/-- The state of a session. -/
structure Session where
  /-- The object file. -/
  input : Path
  /-- Whether it is a fault when an entry had to be left out. -/
  strict : Bool := false
  contents : Option Bytes := none
  image : Option Coff.Image := none
  debugInfo : Option DebugInfo := none
  progress : Tracker := {}

/-- Actions inside a session. One that never ends has no result and leaves no session. -/
abbrev InSession (m : Type → Type) := StateT Session (OptionT m)

namespace Session

variable {m : Type → Type} [Monad m] [Host m]

/-- A session that has not been opened. -/
def new (input : Path) (strict : Bool) : m Session := do
  return { input, strict, progress := { start := ← Host.now } }

/-- The action that never ends. -/
def forever {α : Type} : InSession m α :=
  StateT.lift OptionT.fail

/-- Puts progress in the place of that so far, and hands in what it remarks. -/
def advance (progress : Tracker) (remark : Option Remark) : InSession m Unit := do
  modify fun s => { s with progress }
  if let some (level, text) := remark then Host.emit ⟨level, Channel.generator, text⟩

/-- Runs an action as a block of the progress. -/
def block {ε α : Type} (enter : Tracker → Nat → Tracker × Remark) (reason : ε → String)
    (action : InSession m (Except ε α)) : InSession m (Except ε α) := do
  let (progress, remark) := enter (← get).progress (← Host.now)
  advance progress (some remark)
  let outcome ← action
  let now ← Host.now
  let inside := (← get).progress
  let (progress, remark) :=
    match outcome with
    | .ok _ => inside.leave now
    | .error e => inside.fail now (reason e)
  advance progress remark
  return outcome

/-- Runs an action as an operation of the progress. -/
def operation {ε α : Type} (name : String) (reason : ε → String)
    (action : InSession m (Except ε α)) : InSession m (Except ε α) :=
  block (fun t now => t.enterOperation name now) reason action

end Session

end GlobalMap
