import GlobalMap.Host.Basic
import GlobalMap.Journal.Elapsed
/-!
Stages of a run: actions whose beginning and end are recorded, with the time they took.

A stage hands on what its action ends in, be it a result or an error.
-/
namespace GlobalMap

namespace Stage

/-- The record of a stage that begins. -/
def starting (name : String) : String :=
  s!"Starting {name}"

/-- The record of a stage that has ended well. -/
def completed (name : String) (span : Nat) : String :=
  s!"Completed {name} in {Elapsed.seconds 3 span}s"

/-- The record of a stage that has failed. -/
def failed (name reason : String) (span : Nat) : String :=
  s!"Failed {name} after {Elapsed.seconds 3 span}s: {reason}"

end Stage

variable {m : Type → Type} [Monad m] [Host m]

/-- Runs an action as a stage. -/
def stage {ε α : Type} (channel name : String) (reason : ε → String) (action : m (Except ε α)) :
    m (Except ε α) := do
  Host.debug channel (Stage.starting name)
  let start ← Host.now
  let outcome ← action
  let span := (← Host.now) - start
  match outcome with
  | .ok _ => Host.debug channel (Stage.completed name span)
  | .error e => Host.error channel (Stage.failed name (reason e) span)
  return outcome

end GlobalMap
