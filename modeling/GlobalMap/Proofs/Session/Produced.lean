import GlobalMap.Command
import GlobalMap.Proofs.Dwarf.Circles
import GlobalMap.Proofs.Dwarf.Layout
import GlobalMap.Proofs.MapFile.Atomic
import GlobalMap.Proofs.Session.Runs

/-! From an object file to its map file. Up to the writing a session only hands in records, so
whatever fails before it, or never ends, has changed no other file; and the writing puts the whole
map at its place or changes nothing. -/
namespace GlobalMap

/-- The debug information of an object file, if it is laid out as one. -/
def DebugInfo.ofObject? (contents : Bytes) : Option DebugInfo :=
  (Coff.Image.read contents).toOption.map fun image => DebugInfo.read (.ofImage image)

/-- The survey of an object file, if it is laid out as one and its debug information is whole. -/
def Survey.ofObject? (contents : Bytes) : Option Survey := do
  let info ← DebugInfo.ofObject? contents
  (← Session.ended (Survey.add {} info)).toOption

/-- The debug information of an object file leads around in circles: no number of steps brings a
survey of it to an end. -/
def Survey.Circles (contents : Bytes) : Prop :=
  ∃ image, Coff.Image.read contents = .ok image ∧ ∀ steps,
    (Survey.add {} (DebugInfo.readWithin (.ofImage image) steps)).2 = some .endless

/-- The map that a survey gives. -/
def Survey.entryMap (s : Survey) : List MapEntry :=
  s.graph.resolve.graph.entries

namespace Session

variable {machine machine' : Machine} {s t : Session}

section Steps

variable {α β ε : Type} {a : α} {x : InSession OnMachine (Except ε α)}

theorem runOn_try {f : α → ExceptT ε (InSession OnMachine) β}
    (first : runOn x s machine = (some (.ok a, t), machine')) :
    runOn (ExceptT.mk x >>= f).run s machine = runOn (f a).run t machine' := by
  change runOn (x >>= ExceptT.bindCont f) s machine = _
  rw [runOn_bind first]
  rfl

theorem runOn_try_error {e : ε} {f : α → ExceptT ε (InSession OnMachine) β}
    (first : runOn x s machine = (some (.error e, t), machine')) :
    runOn (ExceptT.mk x >>= f).run s machine = (some (.error e, t), machine') := by
  change runOn (x >>= ExceptT.bindCont f) s machine = _
  rw [runOn_bind first]
  rfl

theorem runOn_try_none {f : α → ExceptT ε (InSession OnMachine) β}
    (first : runOn x s machine = (none, machine')) :
    runOn (ExceptT.mk x >>= f).run s machine = (none, machine') := by
  change runOn (x >>= ExceptT.bindCont f) s machine = _
  exact runOn_bind_none first

theorem runOn_lift {y : OnMachine α} (does : y machine = (a, machine')) :
    runOn (OnMachine.lift y) s machine = (some (a, s), machine') := by
  change (some ((y machine).1, s), (y machine).2) = _
  rw [does]

end Steps

/-! ## Opening -/

/-- A session that holds an object file. -/
def opened (s : Session) (contents : Bytes) (image : Coff.Image) : Session :=
  { s with
    contents := some contents
    image := some image
    debugInfo := some (DebugInfo.read (.ofImage image)) }

theorem tells_readImage {contents : Bytes} {image : Coff.Image}
    (laidOut : Coff.Image.read contents = .ok image) (s : Session) :
    Tells (readImage contents) s (.ok image) { s with image := some image } := by
  refine comes_operation fun b => ?_
  refine comes_bind (a := .ok image) (t := s.within b)
    (comes_stage (comes_bind (tells_forIn fun _ => tells_emit _ _) ?_)) ?_
  · rw [laidOut]
    exact tells_pure _ _
  · exact comes_bind (tells_modify _ _) (tells_pure _ _)

theorem tells_readImage_error {contents : Bytes} {fault : Coff.Malformed}
    (refused : Coff.Image.read contents = .error fault) (s : Session) :
    Tells (readImage contents) s (.error (.container fault)) s := by
  refine comes_operation fun b => ?_
  refine comes_bind (a := .error (.container fault)) (t := s.within b)
    (comes_stage (comes_bind (tells_forIn fun _ => tells_emit _ _) ?_)) ?_
  · rw [refused]
    exact tells_pure _ _
  · exact tells_pure _ _

theorem tells_readDebugInfo (image : Coff.Image) (s : Session) :
    Tells (readDebugInfo image) s (.ok ())
      { s with debugInfo := some (DebugInfo.read (.ofImage image)) } := by
  refine comes_bind (comes_stage (comes_bind (tells_forIn fun _ => tells_emit _ _)
    (tells_pure _ _))) ?_
  exact comes_bind (tells_modify _ _) (tells_pure _ _)

theorem tells_announce (contents : Bytes) (image : Coff.Image) (s : Session) :
    Tells (announce contents image) s () s :=
  comes_bind (tells_get s) (tells_emit _ s)

/-- The steps behind the reading of the contents. -/
theorem tells_openRest {contents : Bytes} {image : Coff.Image}
    (laidOut : Coff.Image.read contents = .ok image) (s : Session) :
    Tells (ExceptT.run do
        let image ← ExceptT.mk (readImage contents)
        ExceptT.mk (readDebugInfo image)
        ExceptT.lift (announce contents image))
      { s with contents := some contents } (.ok ()) (s.opened contents image) := by
  exact comes_try (tells_readImage laidOut _) (comes_try (tells_readDebugInfo image _)
    (tells_lift (tells_announce contents image _)))

theorem runOn_readContents (s : Session) (machine : Machine) : ∃ records,
    runOn readContents s machine =
      match (machine.emitAll records).readFile s.input with
      | .error refusal => (some (.error (.unreadable s.input refusal), s), machine.emitAll records)
      | .ok contents =>
        (some (.ok contents, { s with contents := some contents }), machine.emitAll records) := by
  let note : Record := ⟨.debug, Channel.generator, s!"Reading object file: {s.input.text}"⟩
  refine ⟨[note], ?_⟩
  have read : runOn (Host.readFile s.input) s (machine.emitAll [note]) =
      (some ((machine.emitAll [note]).readFile s.input, s), machine.emitAll [note]) := rfl
  have begun : runOn (Host.debug Channel.generator s!"Reading object file: {s.input.text}") s
      machine = (some ((), s), machine.emitAll [note]) := rfl
  refine (runOn_bind (t := s) rfl).trans ((runOn_bind begun).trans ((runOn_bind read).trans ?_))
  cases (machine.emitAll [note]).readFile s.input <;> rfl

/-- What opening a session ends in, by what its object file reads as, and the session after it: the
contents stay, also where they are no image. -/
def entered (s : Session) : Except Refusal Bytes → Except Fault Unit × Session
  | .error refusal => (.error (.unreadable s.input refusal), s)
  | .ok contents =>
    match Coff.Image.read contents with
    | .error fault => (.error (.container fault), { s with contents := some contents })
    | .ok image => (.ok (), s.opened contents image)

/-- **Opening a session reads its object file**, and hands in records on the way. -/
theorem runOn_openFile (s : Session) (machine : Machine) : ∃ before records,
    runOn openFile s machine =
      (some (s.entered ((machine.emitAll before).readFile s.input)), machine.emitAll records) := by
  obtain ⟨before, reads⟩ := runOn_readContents s machine
  refine ⟨before, ?_⟩
  unfold entered
  cases found : (machine.emitAll before).readFile s.input with
  | error refusal =>
    rw [found] at reads
    exact ⟨before, runOn_try_error reads⟩
  | ok contents =>
    rw [found] at reads
    dsimp only
    cases laidOut : Coff.Image.read contents with
    | error fault =>
      obtain ⟨records, failed⟩ := tells_readImage_error laidOut
        { s with contents := some contents } (machine.emitAll before)
      refine ⟨before ++ records, ?_⟩
      rw [Machine.emitAll_append]
      exact (runOn_try reads).trans (runOn_try_error failed)
    | ok image =>
      obtain ⟨records, rest⟩ := tells_openRest laidOut s (machine.emitAll before)
      refine ⟨before ++ records, ?_⟩
      rw [Machine.emitAll_append]
      exact (runOn_try reads).trans rest

/-! ## Generating -/

theorem tells_project (graph : TypeGraph) (s : Session) :
    Tells (project graph) s (.ok graph.entries) s :=
  comes_stage (comes_bind (tells_emit _ s) (tells_pure _ s))

/-- What a session generates from a survey: the map, unless it is strict and something was left
out. It does not end where the survey does not. -/
theorem comes_generate {info : DebugInfo} (held : s.debugInfo = some info) :
    Comes generate s ((ended (Survey.add {} info)).map fun result =>
      (result.mapError (Fault.debugInfo s.input) >>= fun survey =>
        (s.collected survey).map TypeGraph.entries, s.walked info.units)) := by
  have collects := comes_collect held
  cases found : ended (Survey.add {} info) with
  | none =>
    rw [found] at collects
    exact comes_try_none collects
  | some result =>
    rw [found] at collects
    cases result with
    | error damage => exact comes_try_error collects
    | ok survey =>
      change Tells _ _ (s.collected survey) _ at collects
      change Tells _ _ ((s.collected survey).map TypeGraph.entries) _
      cases kept : s.collected survey with
      | error fault =>
        rw [kept] at collects
        exact comes_try_error collects
      | ok graph =>
        rw [kept] at collects
        exact comes_try collects (comes_operation fun b => tells_project graph _)

/-! ## Writing -/

theorem stage_lift {ε α : Type} (channel name : String) (reason : ε → String)
    (x : OnMachine (Except ε α)) :
    (stage channel name reason (OnMachine.lift x) : InSession OnMachine _) =
      OnMachine.lift (stage channel name reason x) := by
  refine OnMachine.bind_lift (x := Host.emit ⟨.debug, channel, Stage.starting name⟩) fun _ => ?_
  refine OnMachine.bind_lift fun start => OnMachine.bind_lift fun outcome =>
    OnMachine.bind_lift fun now => ?_
  cases outcome <;> rfl

/-- A session writes a map file as a program without one does. -/
theorem write_lift (entries : List MapEntry) (output : Path) (pretty : Bool) :
    (MapFile.write entries output pretty : InSession OnMachine _) =
      OnMachine.lift (MapFile.write entries output pretty) := by
  unfold MapFile.write
  rw [← stage_lift]
  refine congrArg (stage _ _ _) ?_
  cases MapFile.print entries pretty with
  | error number => rfl
  | ok text =>
    dsimp only
    rw [MapFile.replaceContents_lift]
    refine OnMachine.bind_lift fun replaced => ?_
    cases replaced <;> rfl

/-- **Entries are written to a map file or nothing changes** but the file for records. -/
theorem writeEntries_cases (sound : machine.Sound) (entries : List MapEntry) (output : Path)
    (pretty : Bool) (s : Session) :
    (∃ number records, MapFile.print entries pretty = .error number ∧
      runOn (writeEntries entries output pretty) s machine =
        (some (.error (.unwritable (.overlong number)), s), machine.emitAll records)) ∨
    ∃ text, MapFile.print entries pretty = .ok text ∧
      ((∃ refusal records, MapFile.Hinders machine output refusal ∧
        runOn (writeEntries entries output pretty) s machine =
          (some (.error (.unwritable (.refused output refusal)), s), machine.emitAll records)) ∨
      ∃ (goal : List String) (mode : Nat) (before after : List Record),
        machine.place output = .ok goal ∧ machine.files[goal]? ≠ some .directory ∧
        runOn (writeEntries entries output pretty) s machine =
          (some (.ok (), s), ((machine.emitAll before).put goal
            (MapFile.encoded text) mode).emitAll after)) := by
  have part {outcome : Except MapFile.Unwritable Nat} {machine' : Machine}
      (wrote : (MapFile.write entries output pretty : OnMachine _) machine = (outcome, machine')) :
      runOn (writeEntries entries output pretty) s machine =
        (some ((outcome.map fun _ => ()).mapError .unwritable, s), machine') := by
    have inner := runOn_lift (s := s) wrote
    rw [← write_lift] at inner
    exact (runOn_bind inner).trans rfl
  rcases MapFile.write_outcome sound entries output pretty with
    ⟨number, records, unprinted, failed⟩ |
    ⟨text, printed, ⟨refusal, records, hinders, refused⟩ |
      ⟨goal, before, after, leads, file, written⟩⟩
  · exact .inl ⟨number, records, unprinted, part failed⟩
  · exact .inr ⟨text, printed, .inl ⟨refusal, records, hinders, part refused⟩⟩
  · exact .inr ⟨text, printed, .inr ⟨goal, _, before, after, leads, file, part written⟩⟩

theorem collected_eq_ok {survey : Survey} {graph : TypeGraph}
    (collects : s.collected survey = .ok graph) :
    graph = survey.graph.resolve.graph ∧ (s.strict = true → survey.omissions = []) := by
  unfold collected at collects
  split at collects
  next => cases collects
  next whole =>
    cases collects
    refine ⟨rfl, fun strict => ?_⟩
    rw [strict, Bool.true_and, Bool.not_eq_true', Bool.not_eq_false] at whole
    exact List.isEmpty_iff.mp whole

theorem ended_eq_none {outcome : Survey × Option Hindrance} (endless : ended outcome = none) :
    outcome.2 = some .endless := by
  unfold ended at endless
  split at endless
  · cases endless
  · cases endless
  · rfl

/-- A session that writes its map does so from a whole survey. Otherwise it ends in a fault, or it
does not end because the survey does not. -/
theorem write_cases (sound : machine.Sound) {info : DebugInfo} (held : s.debugInfo = some info)
    (output : Path) (pretty : Bool) :
    (∃ fault records, runOn (write output pretty) s machine =
        (some (.error fault, s.walked info.units), machine.emitAll records)) ∨
    ((Survey.add {} info).2 = some .endless ∧
      ∃ records, runOn (write output pretty) s machine = (none, machine.emitAll records)) ∨
      ∃ (survey : Survey) (text : String) (goal : List String) (mode : Nat)
        (before after : List Record),
        ended (Survey.add {} info) = some (.ok survey) ∧
        (s.strict = true → survey.omissions = []) ∧
        MapFile.print survey.entryMap pretty = .ok text ∧
        machine.place output = .ok goal ∧ machine.files[goal]? ≠ some .directory ∧
        runOn (write output pretty) s machine =
          (some (.ok survey.entryMap, s.walked info.units),
            ((machine.emitAll before).put goal (MapFile.encoded text) mode).emitAll after) := by
  obtain ⟨records, generated⟩ := comes_generate held machine
  cases found : ended (Survey.add {} info) with
  | none =>
    rw [found] at generated
    exact .inr (.inl ⟨ended_eq_none found, records, runOn_try_none generated⟩)
  | some result =>
  rw [found] at generated
  cases result with
  | error damage => exact .inl ⟨_, records, runOn_try_error generated⟩
  | ok survey =>
    change runOn generate s machine =
      (some ((s.collected survey).map TypeGraph.entries, _), _) at generated
    cases kept : s.collected survey with
    | error fault =>
      rw [kept] at generated
      exact .inl ⟨_, records, runOn_try_error generated⟩
    | ok graph =>
      rw [kept] at generated
      obtain ⟨rfl, whole⟩ := collected_eq_ok kept
      rcases writeEntries_cases (sound.emitAll records) survey.entryMap output pretty
          (s.walked info.units) with
        ⟨number, more, _, failed⟩ | ⟨text, printed, ⟨refusal, more, _, failed⟩ |
          ⟨goal, mode, before, after, leads, file, written⟩⟩
      · refine .inl ⟨.unwritable (.overlong number), records ++ more, ?_⟩
        rw [Machine.emitAll_append]
        exact (runOn_try generated).trans (runOn_try_error failed)
      · refine .inl ⟨.unwritable (.refused output refusal), records ++ more, ?_⟩
        rw [Machine.emitAll_append]
        exact (runOn_try generated).trans (runOn_try_error failed)
      · refine .inr (.inr ⟨survey, text, goal, mode, records ++ before, after, rfl, whole, printed,
          Machine.place_emitAll.mp leads,
          fun directory => file (Machine.directory_emitAll.mpr directory), ?_⟩)
        rw [Machine.emitAll_append]
        exact (runOn_try generated).trans ((runOn_try written).trans rfl)

/-- A session that holds nothing of its object file. -/
def closed (s : Session) : Session :=
  { s with contents := none, image := none, debugInfo := none }

theorem tells_close (s : Session) : Tells close s () s.closed :=
  comes_bind (tells_modify _ s) (tells_emit _ _)

/-- **A session writes the map of its object file or changes nothing** but the file for records.
What is left out of a map is allowed to be left out. Only where the debug information leads around
in circles the session does not end. -/
theorem produce_cases (sound : machine.Sound) (s : Session) (output : Path) (pretty : Bool) :
    (∃ fault t records, runOn (Command.produce output pretty) s machine =
        (some (.error fault, t), machine.emitAll records)) ∨
    (∃ (first : List Record) (contents : Bytes) (records : List Record),
        (machine.emitAll first).readFile s.input = .ok contents ∧ Survey.Circles contents ∧
        runOn (Command.produce output pretty) s machine = (none, machine.emitAll records)) ∨
      ∃ (first : List Record) (contents : Bytes) (survey : Survey) (text : String)
        (goal : List String) (mode : Nat) (before after : List Record) (t : Session),
        (machine.emitAll first).readFile s.input = .ok contents ∧
        Survey.ofObject? contents = some survey ∧ (s.strict = true → survey.omissions = []) ∧
        MapFile.print survey.entryMap pretty = .ok text ∧
        machine.place output = .ok goal ∧ machine.files[goal]? ≠ some .directory ∧
        runOn (Command.produce output pretty) s machine =
          (some (.ok survey.entryMap, t), ((machine.emitAll before).put goal
            (MapFile.encoded text) mode).emitAll after) := by
  obtain ⟨first, records, opens⟩ := runOn_openFile s machine
  unfold entered at opens
  cases read : (machine.emitAll first).readFile s.input with
  | error refusal =>
    rw [read] at opens
    exact .inl ⟨_, _, records, (runOn_bind opens).trans rfl⟩
  | ok contents =>
  rw [read] at opens
  dsimp only at opens
  cases laidOut : Coff.Image.read contents with
  | error fault =>
    rw [laidOut] at opens
    exact .inl ⟨_, _, records, (runOn_bind opens).trans rfl⟩
  | ok image =>
  rw [laidOut] at opens
  have sound' := sound.emitAll records
  have info? : DebugInfo.ofObject? contents = some (DebugInfo.read (.ofImage image)) := by
    rw [DebugInfo.ofObject?, laidOut]
    rfl
  let u := (s.opened contents image).walked (DebugInfo.read (.ofImage image)).units
  rcases write_cases (s := s.opened contents image) sound' rfl output pretty with
    ⟨fault, more, failed⟩ | ⟨endless, more, unended⟩ |
      ⟨survey, text, goal, mode, before, after, whole, strict, printed, leads, file, written⟩
  · obtain ⟨last, done⟩ := tells_close _ ((machine.emitAll records).emitAll more)
    refine .inl ⟨fault, u.closed, records ++ (more ++ last), (runOn_bind opens).trans
      ((runOn_bind failed).trans ((runOn_bind done).trans ?_))⟩
    rw [Machine.emitAll_append, Machine.emitAll_append]
    rfl
  · have circles := (Survey.add_read_endless_iff (.ofImage image) {}).mp endless
    refine .inr (.inl ⟨first, contents, records ++ more, read, ⟨image, laidOut, circles⟩, ?_⟩)
    rw [Machine.emitAll_append]
    exact (runOn_bind opens).trans (runOn_bind_none unended)
  · obtain ⟨last, done⟩ := tells_close u (((machine.emitAll records).emitAll before).put goal
      (MapFile.encoded text) mode |>.emitAll after)
    have survey? : Survey.ofObject? contents = some survey := by
      rw [Survey.ofObject?, info?]
      change (Session.ended _).bind Except.toOption = _
      rw [whole]
      rfl
    refine .inr (.inr ⟨first, contents, survey, text, goal, mode, records ++ before, after ++ last,
      u.closed, read, survey?, strict, printed, Machine.place_emitAll.mp leads,
      fun directory => file (Machine.directory_emitAll.mpr directory), (runOn_bind opens).trans
        ((runOn_bind written).trans ((runOn_bind done).trans ?_))⟩)
    rw [Machine.emitAll_append, Machine.emitAll_append]
    rfl

/-! ## An object file -/

/-- The entries of a unit with a type, a variable of it, and a variable without a place. -/
def spareEntries : Bytes :=
  Dwarf.entryBytes .compileUnit [(Dwarf.nameAttribute, .text "test.c")] ++
    Dwarf.SourceItem.bytes (.baseType "int" 5 4) ++
    Dwarf.SourceItem.bytes (.global "counter" 19 0x2000) ++
    Dwarf.entryBytes .global [(Dwarf.nameAttribute, .text "spare"),
      (Dwarf.typeAttribute, .reference 19), (Dwarf.externalAttribute, .present),
      (Dwarf.locationAttribute, .program [])] ++ [0]

/-- An object file with that unit. -/
def spareObject : Coff.Contents where
  sections := [(Dwarf.Sections.abbreviationsName, Dwarf.abbreviationBytes),
    (Dwarf.Sections.entriesName, Bytes.ofNatLittle 4 (7 + spareEntries.length) ++
      Bytes.pack [(2, 4), (4, 0), (1, 4)] ++ spareEntries)]

end Session

end GlobalMap
