import GlobalMap.DebugInfo.Walk
/-!
The type graph that the units of debug information add up to, with what was left out of it.

A survey may go over several files; what it has gathered only grows. Where two entries have the same
offset the later one counts.
-/
namespace GlobalMap

/-- What has been gathered from the units walked so far. -/
structure Survey where
  graph : TypeGraph := {}
  omissions : List Omission := []
  /-- The number of units that have been started. -/
  units : Nat := 0
  /-- The number of entries that have been visited. -/
  entries : Nat := 0

namespace Survey

/-- Adds what a walk found. -/
def addFindings (s : Survey) (findings : List Finding) : Survey where
  graph := {
    baseTypes := s.graph.baseTypes.insertMany (findings.filterMap Finding.baseType?)
    typedefs := s.graph.typedefs.insertMany (findings.filterMap Finding.typeDefinition?)
    structures := s.graph.structures.insertMany (findings.filterMap Finding.structure?)
    qualifiers := s.graph.qualifiers.insertMany (findings.filterMap Finding.qualifier?)
    globals := s.graph.globals ++ findings.filterMap Finding.global? }
  omissions := s.omissions ++ findings.filterMap Finding.omission?
  units := s.units
  entries := s.entries + findings.countP Finding.isVisit

/-- Adds the findings of the walk over a unit. -/
def addTrail (s : Survey) (trail : Trail) : Survey :=
  { s.addFindings trail.findings with units := s.units + 1 }

/-- Adds units one after the other, up to the first whose walk does not get to its end. -/
def addUnits (s : Survey) : List DebugUnit → Survey × Option Hindrance
  | [] => (s, none)
  | u :: rest =>
    let trail := u.trail
    match trail.failure with
    | some hindrance => (s.addTrail trail, some hindrance)
    | none => addUnits (s.addTrail trail) rest

/-- Adds the units of a file, with what keeps the survey from getting to their end if anything
does. -/
def add (s : Survey) (info : DebugInfo) : Survey × Option Hindrance :=
  let (after, hindrance) := s.addUnits info.units
  (after, hindrance.or (info.failure.map Hindrance.damaged))

end Survey

end GlobalMap
