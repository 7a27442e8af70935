import GlobalMap.DebugInfo.Survey
import GlobalMap.MapFile.Projection
import GlobalMap.Session.Basic
import GlobalMap.Session.Fault
import GlobalMap.TypeGraph.Resolved
/-!
From the debug information of an open session to its map.

Each run starts from the debug information anew, so it ends in the same way whatever was run before;
only the progress adds up.
-/
namespace GlobalMap.Session

variable {m : Type → Type} [Monad m] [Host m]

/-! ## The survey of the debug information -/

/-- Walks a unit. The walk over one whose entries lead around in circles never ends. -/
def walkUnit (s : Survey) (u : DebugUnit) : InSession m (Except Damage Survey) :=
  block (fun t now => t.enterUnit u.offset u.length now) Damage.message do
    let trail := u.trail
    for omission in trail.findings.filterMap Finding.omission? do
      Host.debug Channel.walk omission.message
    advance ((← get).progress.countEntries (trail.findings.countP Finding.isVisit)) none
    match trail.failure with
    | some (.damaged damage) => return .error damage
    | some .endless => forever
    | none => return .ok (s.addTrail trail)

/-- Walks units one after the other, up to the first that is damaged. -/
def walkUnits (s : Survey) : List DebugUnit → InSession m (Except Damage Survey)
  | [] => return .ok s
  | u :: rest => do
    match ← walkUnit s u with
    | .error damage => return .error damage
    | .ok after => walkUnits after rest

/-- What the numbers of a survey are. -/
def countsOf (graph : TypeGraph) : String :=
  s!"Collected {graph.structures.size} structures, {graph.typedefs.size} typedefs, " ++
    s!"{graph.baseTypes.size} base types, {graph.globals.length} globals"

/-- Sums up a survey. -/
def reportSurvey (s : Survey) : InSession m Unit := do
  let progress := (← get).progress
  advance progress (some (progress.summary (← Host.now)))
  if let some text := Omission.summary? s.omissions then Host.warning Channel.walk text
  Host.info Channel.walk (countsOf s.graph)

/-- The survey of debug information. -/
def survey (info : DebugInfo) : InSession m (Except Damage Survey) :=
  stage Channel.walk "Mapper.process" Damage.message do
    match ← walkUnits {} info.units, info.failure with
    | .error damage, _ => return .error damage
    | .ok _, some damage => return .error damage
    | .ok s, none =>
      reportSurvey s
      return .ok s

/-! ## The resolved graph -/

/-- Hands in what was noticed about an alias. A dangling one is no cause for a warning. -/
def reportNotice (notice : AliasNotice) : InSession m Unit :=
  match notice with
  | .loop _ => Host.warning Channel.resolution notice.message
  | .dangling _ _ => Host.debug Channel.resolution notice.message

/-- Resolves a graph. -/
def resolve (graph : TypeGraph) : InSession m (Except Fault TypeGraph) :=
  stage Channel.resolution "Postprocessor.run" Fault.message do
    let resolved := graph.resolve
    for notice in resolved.notices do
      reportNotice notice
    let outcome ← stage Channel.flattening "StructFlattener.flatten_all" Fault.message do
      for cut in resolved.flattener.cuts do
        Host.warning Channel.flattening cut.message
      if let some text := resolved.flattener.summary? then Host.warning Channel.flattening text
      return .ok resolved.graph
    Host.info Channel.resolution (s!"Resolved field trees for {resolved.graph.attachedCount} of " ++
      s!"{resolved.graph.globals.length} globals")
    return outcome

/-! ## The steps of a session -/

/-- The survey of the debug information that the session holds. -/
def walk : InSession m (Except Fault Survey) := do
  match (← get).debugInfo with
  | none => return .error .notOpen
  | some info =>
    let path := (← get).input
    operation "walk debug info" Fault.message do
      return (← survey info).mapError (.debugInfo path)

/-- Refuses a survey that left entries out, if the session does. -/
def checkOmissions (s : Survey) : InSession m (Except Fault Unit) := do
  if (← get).strict && !s.omissions.isEmpty then return .error (.omissions s.omissions.length)
  else return .ok ()

/-- The resolved type graph of the object file. -/
def collect : InSession m (Except Fault TypeGraph) :=
  stage Channel.generator "MapfileGenerator.collect_types" Fault.message <| ExceptT.run do
    let s ← ExceptT.mk walk
    ExceptT.mk (checkOmissions s)
    ExceptT.mk (operation "resolve types" Fault.message (resolve s.graph))

/-- The entries of a resolved graph. -/
def project (graph : TypeGraph) : InSession m (Except Fault (List MapEntry)) :=
  stage Channel.projection "MapEntryProjector.project" Fault.message do
    let entries := graph.entries
    Host.debug Channel.projection s!"Projected {entries.length} map entries"
    return .ok entries

/-- The map of the object file. -/
def generate : InSession m (Except Fault (List MapEntry)) := ExceptT.run do
  let graph ← ExceptT.mk collect
  ExceptT.mk (operation "project map entries" Fault.message (project graph))

/-- Writes entries to a map file. -/
def writeEntries (entries : List MapEntry) (output : Path) (pretty : Bool) :
    InSession m (Except Fault Unit) := do
  let outcome ← MapFile.write entries output pretty
  return (outcome.map fun _ => ()).mapError .unwritable

/-- Writes the map of the object file to a map file, and answers with its entries. Nothing is
written when there is no map. -/
def write (output : Path) (pretty : Bool) : InSession m (Except Fault (List MapEntry)) :=
  ExceptT.run do
    let entries ← ExceptT.mk generate
    ExceptT.mk (writeEntries entries output pretty)
    return entries

end GlobalMap.Session
