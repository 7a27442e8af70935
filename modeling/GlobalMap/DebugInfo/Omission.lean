import GlobalMap.Location.Machine
import GlobalMap.Text.Hex
import Std.Data.ExtTreeMap
/-!
Entries that are left out of the type graph, with the reasons, and their summary by kind.
-/
namespace GlobalMap

/-- Why an entry is left out. -/
inductive OmissionReason where
  /-- An attribute cannot be read. -/
  | unreadable (reason : String)
  | noName
  | incompleteDefinition
  | incompleteMember
  | incompleteVariable
  /-- A variable has a list of locations, one for each part of the program. -/
  | locationList
  /-- The location program cannot be reduced. -/
  | unlocatable (fault : Location.Fault)
  /-- The location is no place that the map can show. -/
  | misplaced (kind : Location.Kind)
  deriving DecidableEq, Repr

namespace OmissionReason

def message : OmissionReason → String
  | unreadable reason => reason
  | noName => "no name"
  | incompleteDefinition => "needs both a name and a type"
  | incompleteMember => "needs a name, a type and a member location"
  | incompleteVariable => "needs a name, a type and a location"
  | locationList => "location list instead of an expression"
  | unlocatable fault => fault.message
  | misplaced kind => s!"location is a {kind.name}"

end OmissionReason

/-- An entry that is left out. -/
structure Omission where
  /-- What the entry would have been. -/
  kind : String
  offset : Int
  reason : OmissionReason
  deriving DecidableEq, Repr

namespace Omission

def message (o : Omission) : String :=
  s!"Skipped {o.kind} at {Text.hex o.offset}: {o.reason.message}"

/-- The number of omissions of each kind. -/
def tally (omissions : List Omission) : Std.ExtTreeMap String Nat :=
  omissions.foldl (fun counts o => counts.insert o.kind (counts.getD o.kind 0 + 1)) ∅

/-- The warning that sums up omissions, if there are any: their number, and that of each kind in
the order of the kinds. -/
def summary? (omissions : List Omission) : Option String :=
  if omissions.isEmpty then none
  else
    let counts := (tally omissions).toList.map fun (kind, count) => s!"{count} {kind}"
    let details := ", ".intercalate counts
    some s!"Omitted {omissions.length} debug entries ({details})"

end Omission

end GlobalMap
