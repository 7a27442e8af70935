import GlobalMap.Coff.Image
import GlobalMap.DebugInfo.Entry
import GlobalMap.MapFile.Writing
/-!
Why a step of a session fails.
-/
namespace GlobalMap

namespace Session

/-- Why a step of a session fails. -/
inductive Fault where
  /-- The object file cannot be read. -/
  | unreadable (path : Path) (refusal : Refusal)
  /-- The object file is not laid out as one. -/
  | container (fault : Coff.Malformed)
  /-- The session is not open. -/
  | notOpen
  /-- The encoding of the debug information is damaged. -/
  | debugInfo (path : Path) (damage : Damage)
  /-- Entries were left out, and the session does not allow that. -/
  | omissions (count : Nat)
  /-- The map file cannot be written. -/
  | unwritable (fault : MapFile.Unwritable)
  deriving DecidableEq, Repr

namespace Fault

def message : Fault → String
  | unreadable path refusal => s!"Cannot read {path.text}: {refusal.message}"
  | container fault => fault.message
  | notOpen => "generator must be entered first"
  | debugInfo path (.malformed what) => s!"Cannot decode debug info of {path.text}: {what}"
  | debugInfo _ damage => damage.message
  | omissions count => s!"{count} debug entries were omitted (strict mode)"
  | unwritable fault => fault.message

/-- Whether a fault is one that a run reports. The others end it at once: a step out of its turn,
debug information that is of a kind not provided for, a number with too many digits, and a map file
whose path is none. -/
def isReported : Fault → Bool
  | notOpen | debugInfo _ (.missingSection _) | debugInfo _ (.addressSize _)
  | debugInfo _ (.siblingForm _) | debugInfo _ (.overlong _) => false
  | unwritable fault => fault.isOfMachine
  | _ => true

end Fault

end Session

end GlobalMap
