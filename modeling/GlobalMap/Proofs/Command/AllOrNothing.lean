import GlobalMap.Proofs.Command.Configured
import GlobalMap.Proofs.Journal.Logging
import GlobalMap.Proofs.Session.Histories

/-! A run of the program is all or nothing. With status 0 the map of the input file stands at the
output path and no other file has changed but the log file; with any other status no file has
changed but the log file, whichever step of the run failed. A run over entries that lead around in
circles has no status, and changes no file but the log file either. -/
namespace GlobalMap

open OnMachine

namespace Machine

variable {m m' base : Machine} {place goal : List String} {log : Option (List String)}

/-- No file has been made, removed or changed but at some places. -/
def ChangedOnlyAt (m m' : Machine) (places : List (List String)) : Prop :=
  ∀ place, place ∉ places → m'.file? place = m.file? place

theorem file?_emitAll (other : m.kept ≠ some place) (records : List Record) :
    (m.emitAll records).file? place = m.file? place := by
  rw [file?, file?, getElem?_emitAll, linesAt_of_ne other, Node.map_behind_nil]

theorem file?_put (m : Machine) (goal : List String) (contents : Bytes) (mode : Nat) :
    (m.put goal contents mode).file? goal = some (contents, mode) := by
  rw [file?, put, FileTree.getElem?_insert_self]

theorem file?_put_of_ne (other : place ≠ goal) (contents : Bytes) (mode : Nat) :
    (m.put goal contents mode).file? place = m.file? place := by
  rw [file?, file?, put, FileTree.getElem?_insert_of_ne _ other]

/-- A path that leads to no directory leads there still once a file has been put there. -/
theorem place_put {path : Path} (leads : m.place path = .ok goal)
    (file : m.files[goal]? ≠ some .directory) (contents : Bytes) (mode : Nat) :
    (m.put goal contents mode).place path = .ok goal := by
  refine place_mono leads (fun p held => ?_) rfl
  have apart : p ≠ goal := by
    rintro rfl
    exact file held
  exact (FileTree.getElem?_insert_of_ne _ apart).trans held

theorem Prepared.ne_kept (prepared : Prepared m base log) (other : log ≠ some place) :
    base.kept ≠ some place := by
  rcases prepared.kept with none | same
  · rw [none]
    exact fun same => by cases same
  · rwa [same]

end Machine

namespace Command

/-- The settings that a run starts from, if it comes to start. -/
def settings? (words : List String) (m : Machine) : Option Settings :=
  match CommandLine.read words with
  | .error _ => none
  | .ok given => ((configure given : OnMachine _) m).1.toOption

/-- The places of the log files of a run. -/
def logPlaces (words : List String) (m : Machine) : List (List String) :=
  ((settings? words m).bind fun settings => m.logPlace? settings.logDirectory).toList

/-- What a run with settings has done that has written a map: the file at its output path is the map
of its input file, and no other file is different. -/
structure Mapped (settings : Settings) (log : Option (List String)) (before after : Machine)
    (input output : Path) (contents lines : Bytes) (survey : Survey) (text : String)
    (goal : List String) (mode : Nat) : Prop where
  input_eq : settings.input = some input
  output_eq : settings.output = some output
  read : before.readFile input = .ok contents
  /-- Records stand behind what the input file held only if it is the log file. -/
  lines_eq : lines = [] ∨ ∃ place, log = some place ∧ before.place input = .ok place
  surveyed : Survey.ofObject? (contents ++ lines) = some survey
  strict : settings.strict = true → survey.omissions = []
  printed : MapFile.print survey.entryMap settings.pretty = .ok text
  leads : after.place output = .ok goal
  written : after.file? goal = some (MapFile.encoded text, mode)
  others : before.ChangedOnlyAt after (goal :: log.toList)

/-- The two ways in which a run ends, and the one in which it does not. -/
inductive Ended (words : List String) (before : Machine) : Option Nat → Machine → Prop
  /-- With the map of its input file written. -/
  | mapped {settings : Settings} {after : Machine} {input output : Path} {contents lines : Bytes}
      {survey : Survey} {text : String} {goal : List String} {mode : Nat}
      (configured : settings? words before = some settings)
      (mapped : Mapped settings (before.logPlace? settings.logDirectory) before after input output
        contents lines survey text goal mode) : Ended words before (some 0) after
  /-- With a failure, and all files as they were. -/
  | failed {status : Nat} {after : Machine} (nonzero : status ≠ 0)
      (unchanged : before.ChangedOnlyAt after (logPlaces words before)) :
      Ended words before (some status) after
  /-- Not at all, because the entries of its input file lead around in circles. All files are as
  they were. -/
  | endless {settings : Settings} {after : Machine} {input : Path} {contents lines : Bytes}
      (configured : settings? words before = some settings)
      (input_eq : settings.input = some input) (read : before.readFile input = .ok contents)
      (lines_eq : lines = [] ∨ ∃ place, before.logPlace? settings.logDirectory = some place ∧
        before.place input = .ok place)
      (circles : Survey.Circles (contents ++ lines))
      (unchanged : before.ChangedOnlyAt after (logPlaces words before)) :
      Ended words before none after

variable {m : Machine}

/-- Telling why there is no map changes no file but that for records. -/
theorem file?_reportFault (fault : Session.Fault) (m : Machine) : ∃ records, ∀ place,
    ((reportFault fault : OnMachine Unit) m).2.file? place = (m.emitAll records).file? place := by
  unfold reportFault
  by_cases reported : fault.isReported = true
  · rw [if_pos reported]
    exact ⟨[⟨.error, Channel.command, s!"Mapping failed: {fault.message}"⟩], fun place => rfl⟩
  · rw [if_neg reported]
    exact ⟨[], fun place => rfl⟩

/-- What a run hands in and exits with once its session has ended, if it has. -/
def exitOf (output : Path) :
    Option (Except Session.Fault (List MapEntry) × Session) → OnMachine (Option Nat)
  | none => return none
  | some (.error fault, _) => do
    reportFault fault
    return some failure
  | some (.ok entries, _) => do
    Host.info Channel.command s!"[SUCCESS] Mapped {entries.length} globals to {output.text}"
    return some 0

/-- A run that has its settings writes the map of its input file or changes nothing but the file
for records. -/
theorem mapFile_cases (sound : m.Sound) (input output : Path) (settings : Settings) :
    (∃ after records, (mapFile input output settings : OnMachine _) m = (some failure, after) ∧
        ∀ place, after.file? place = (m.emitAll records).file? place) ∨
    (∃ (first : List Record) (contents : Bytes) (records : List Record),
        (m.emitAll first).readFile input = .ok contents ∧ Survey.Circles contents ∧
        (mapFile input output settings : OnMachine _) m = (none, m.emitAll records)) ∨
      ∃ (first : List Record) (contents : Bytes) (survey : Survey) (text : String)
        (goal : List String) (mode : Nat) (before after : List Record),
        (m.emitAll first).readFile input = .ok contents ∧
        Survey.ofObject? contents = some survey ∧
        (settings.strict = true → survey.omissions = []) ∧
        MapFile.print survey.entryMap settings.pretty = .ok text ∧
        m.place output = .ok goal ∧ m.files[goal]? ≠ some .directory ∧
        (mapFile input output settings : OnMachine _) m =
          (some 0, ((m.emitAll before).put goal (MapFile.encoded text) mode).emitAll after) := by
  let notes : List Record := [⟨.debug, Channel.command, s!"Input file: {input.text}"⟩,
    ⟨.debug, Channel.command, s!"Output file: {output.text}"⟩]
  let session : Session :=
    { input, strict := settings.strict, progress := { start := (m.emitAll notes).clock } }
  have goesOn {outcome : Option (Except Session.Fault (List MapEntry) × Session)}
      {machine : Machine} (ran : Session.runOn (produce output settings.pretty) session
        (m.emitAll notes) = (outcome, machine)) :
      (mapFile input output settings : OnMachine _) m = exitOf output outcome machine := by
    have begun : (mapFile input output settings : OnMachine _) m =
        (((produce output settings.pretty).run session).run >>= exitOf output)
          (m.emitAll notes) := rfl
    exact begun.trans (run_bind (x := ((produce output settings.pretty).run session).run) ran)
  rcases Session.produce_cases (sound.emitAll notes) session output settings.pretty with
    ⟨fault, t, records, failed⟩ | ⟨first, contents, records, read, circles, unended⟩ |
      ⟨first, contents, survey, text, goal, mode, before, after, t, read, surveyed, strict, printed,
        leads, file, written⟩
  · obtain ⟨more, told⟩ := file?_reportFault fault ((m.emitAll notes).emitAll records)
    refine .inl ⟨_, notes ++ records ++ more, (goesOn failed).trans rfl, fun place => ?_⟩
    rw [Machine.emitAll_append, Machine.emitAll_append]
    exact told place
  · refine .inr (.inl ⟨notes ++ first, contents, notes ++ records, ?_, circles,
      (goesOn unended).trans ?_⟩)
    · rw [Machine.emitAll_append]
      exact read
    · rw [Machine.emitAll_append]
      rfl
  · refine .inr (.inr ⟨notes ++ first, contents, survey, text, goal, mode, notes ++ before,
      after ++ [⟨.info, Channel.command,
        s!"[SUCCESS] Mapped {survey.entryMap.length} globals to {output.text}"⟩], ?_, surveyed,
      strict, printed, Machine.place_emitAll.mp leads,
      fun directory => file (Machine.directory_emitAll.mpr directory), (goesOn written).trans ?_⟩)
    · rw [Machine.emitAll_append]
      exact read
    · rw [Machine.emitAll_append, Machine.emitAll_append]
      rfl

theorem changedOnlyAt_of_prepared {before base after : Machine} {log : Option (List String)}
    {records : List Record} (prepared : before.Prepared base log)
    (same : ∀ place, after.file? place = (base.emitAll records).file? place) :
    before.ChangedOnlyAt after log.toList := by
  intro place apart
  have other : log ≠ some place := fun here => apart (Option.mem_toList.mpr here)
  rw [same, Machine.file?_emitAll (prepared.ne_kept other), prepared.file?_eq other]

theorem readFile_eq {m : Machine} {path : Path} {place : List String} {contents : Bytes}
    {mode : Nat} (leads : m.place path = .ok place)
    (held : m.files[place]? = some (.file contents mode)) : m.readFile path = .ok contents := by
  rw [Machine.readFile, Machine.fileAt_of_file leads held]
  rfl

/-- What is read of a file after records have been handed in: what it held before, with the records
behind it where it is the log file. -/
theorem read_of_prepared {before base : Machine} {log : Option (List String)}
    (prepared : before.Prepared base log) {input : Path} {place : List String} {contents : Bytes}
    {mode : Nat} (leads : before.place input = .ok place)
    (held : before.files[place]? = some (.file contents mode)) {records : List Record}
    {found : Bytes} (read : (base.emitAll records).readFile input = .ok found) :
    ∃ lines, found = contents ++ lines ∧
      (lines = [] ∨ ∃ place, log = some place ∧ before.place input = .ok place) := by
  have leads' : (base.emitAll records).place input = .ok place :=
    Machine.place_emitAll.mpr (prepared.place_eq leads)
  have held' : (base.emitAll records).files[place]? =
      some (.file (contents ++ base.linesAt place records) mode) := by
    rw [Machine.getElem?_emitAll, prepared.stays place _ held]
    rfl
  cases (readFile_eq leads' held').symm.trans read
  refine ⟨_, rfl, ?_⟩
  by_cases here : log = some place
  · exact .inr ⟨place, here, leads⟩
  · exact .inl (Machine.linesAt_of_ne (prepared.ne_kept here) records)

/-- What has become of the files once contents have been put at a place. -/
theorem changed_of_put {before base : Machine} {log : Option (List String)}
    (prepared : before.Prepared base log) (goal : List String) (earlier later : List Record)
    (contents : Bytes) (mode : Nat) :
    let after := ((base.emitAll earlier).put goal contents mode).emitAll later
    after.file? goal = some (contents, mode) ∧ before.ChangedOnlyAt after (goal :: log.toList) := by
  refine ⟨?_, fun place apart => ?_⟩
  · rw [Machine.file?_emitAll (Machine.kept_put_ne _ goal contents mode), Machine.file?_put]
  · obtain ⟨other, apart⟩ := List.ne_and_not_mem_of_not_mem_cons apart
    have log_ne : log ≠ some place := fun here => apart (Option.mem_toList.mpr here)
    have kept : (base.emitAll earlier).kept ≠ some place := by
      rw [Machine.kept_emitAll]
      exact prepared.ne_kept log_ne
    rw [Machine.file?_emitAll (Machine.kept_put_of_ne kept contents mode),
      Machine.file?_put_of_ne other, Machine.file?_emitAll (prepared.ne_kept log_ne),
      prepared.file?_eq log_ne]

section Started

variable {words : List String} {before base : Machine} {settings : Settings}
  {records : List Record} {input : Path} {place : List String} {contents : Bytes} {mode : Nat}
  (configured : settings? words before = some settings)
  (prepared : before.Prepared base (before.logPlace? settings.logDirectory))

include configured prepared

/-- A run that has handed in nothing but records since it was set up has changed nothing but log
files. -/
theorem unchanged_of_prepared {after : Machine}
    (same : ∀ place, after.file? place = (base.emitAll records).file? place) :
    before.ChangedOnlyAt after (logPlaces words before) := by
  rw [logPlaces, configured]
  exact changedOnlyAt_of_prepared prepared same

theorem ended_of_prepared {after : Machine}
    (same : ∀ place, after.file? place = (base.emitAll records).file? place) :
    Ended words before (some failure) after :=
  .failed (by decide) (unchanged_of_prepared configured prepared same)

theorem mapFile_ended {output : Path} (input_eq : settings.input = some input)
    (output_eq : settings.output = some output) (leads : before.place input = .ok place)
    (held : before.files[place]? = some (.file contents mode)) :
    Ended words before ((mapFile input output settings : OnMachine _) (base.emitAll records)).1
      ((mapFile input output settings : OnMachine _) (base.emitAll records)).2 := by
  rcases mapFile_cases (prepared.sound.emitAll records) input output settings with
    ⟨after, more, ended, same⟩ | ⟨first, found, more, read, circles, ended⟩ |
      ⟨first, found, survey, text, goal, bits, earlier, later, read, surveyed, strict, printed,
        goes, file, ended⟩
  · rw [ended]
    rw [← Machine.emitAll_append] at same
    exact ended_of_prepared configured prepared same
  · rw [← Machine.emitAll_append] at read ended
    obtain ⟨lines, rfl, lines_eq⟩ := read_of_prepared prepared leads held read
    rw [ended]
    exact .endless configured input_eq (readFile_eq leads held) lines_eq circles
      (unchanged_of_prepared configured prepared fun place => rfl)
  · rw [← Machine.emitAll_append] at read ended
    obtain ⟨lines, rfl, lines_eq⟩ := read_of_prepared prepared leads held read
    let written := MapFile.encoded text
    obtain ⟨there, others⟩ := changed_of_put prepared goal (records ++ earlier) later written bits
    have put := Machine.place_put (m := base.emitAll (records ++ earlier))
      (Machine.place_emitAll.mpr (Machine.place_emitAll.mp goes))
      (fun directory => file
        (Machine.directory_emitAll.mpr (Machine.directory_emitAll.mp directory))) written bits
    rw [ended]
    exact .mapped configured ⟨input_eq, output_eq, readFile_eq leads held, lines_eq, surveyed,
      strict, printed, Machine.place_emitAll.mpr put, there, others⟩

end Started

theorem runFrom_ended {words : List String} {before : Machine} {settings : Settings}
    (tree : before.files.IsTree) (configured : settings? words before = some settings)
    {input : Path} {place : List String} {contents : Bytes} {mode : Nat}
    (input_eq : settings.input = some input) (leads : before.place input = .ok place)
    (held : before.files[place]? = some (.file contents mode)) :
    Ended words before ((runFrom settings : OnMachine _) before).1
      ((runFrom settings : OnMachine _) before).2 := by
  obtain ⟨⟨result, l⟩, base, records, sets, prepared⟩ :=
    Machine.setUp_prepares tree settings.logDirectory settings.verbose
  cases result with
  | error refusal =>
    have ended : (runFrom settings : OnMachine _) before =
        (some failure, (base.emitAll records).printError refusal.message) :=
      (run_bind sets).trans rfl
    rw [ended]
    exact ended_of_prepared configured prepared fun place => rfl
  | ok _ =>
    cases output_eq : settings.output with
    | none =>
      have ended : (runFrom settings : OnMachine _) before =
          (some failure, base.emitAll records) := by
        refine (run_bind sets).trans ?_
        rw [input_eq, output_eq]
        rfl
      rw [ended]
      exact ended_of_prepared configured prepared fun place => rfl
    | some output =>
      have begun : (runFrom settings : OnMachine _) before =
          (mapFile input output settings : OnMachine _) (base.emitAll records) := by
        refine (run_bind sets).trans ?_
        rw [input_eq, output_eq]
      rw [begun]
      exact mapFile_ended configured prepared input_eq output_eq leads held

/-- A machine with an object file, and a map of it from an earlier run. -/
def secondRun (object : Bytes) (refuses : Request → Bool) : Machine where
  files := (((∅ : FileTree).insert [] .directory).insert ["fw.out"]
    (.file object 0o644)).insert ["fw.out.map.json"] (.file [1, 2, 3] 0o600)
  refuses := refuses

theorem isTree_secondRun (object : Bytes) (refuses : Request → Bool) :
    (secondRun object refuses).files.IsTree := by
  have name : FileTree.IsName "fw.out" := ⟨by decide, by decide, by decide⟩
  have map : FileTree.IsName "fw.out.map.json" := ⟨by decide, by decide, by decide⟩
  have root : ((∅ : FileTree).insert [] .directory)[([] : List String)]? = some .directory := by
    decide
  have free : ((∅ : FileTree).insert [] .directory)[["fw.out"]]? ≠ some .directory := by decide
  have first := FileTree.isTree_root.insert_child name root (.file object 0o644)
    fun taken => absurd taken free
  have root' : (((∅ : FileTree).insert [] .directory).insert ["fw.out"]
      (.file object 0o644))[([] : List String)]? = some .directory :=
    (FileTree.getElem?_insert_of_ne _ (by decide)).trans root
  refine first.insert_child map root' _ fun taken => ?_
  rw [FileTree.getElem?_insert_of_ne _ (by decide)] at taken
  exact absurd taken (by decide)

/-- The map of the object file, indented. -/
def spareMap : String :=
  "[\n  \x7b\n    \"addr\": 8192,\n    \"type\": \"int\",\n" ++
    "    \"name\": \"counter\"\n  \x7d\n]"

/-- An object file with a unit in which an entry with children says that it stands behind itself. -/
def circleObject : Coff.Contents where
  sections := [
    (Dwarf.Sections.abbreviationsName, Dwarf.declarationBytes [
      (1, { tag := 0x11, hasChildren := true, attributes := [] }),
      (2, { tag := 0x0b, hasChildren := true
            attributes := [{ name := Dwarf.siblingAttribute, form := 0x13 }] })]),
    (Dwarf.Sections.entriesName, Bytes.pack [(4, 15), (2, 4), (4, 0), (1, 4)] ++
      -- The first entry, the one at 12, and the ends of their children.
      ([1] ++ 2 :: Bytes.ofNatLittle 4 12 ++ [0, 0]))]

theorem circles_circleObject : Survey.Circles circleObject.bytes := by
  have endless : ((Coff.Image.read circleObject.bytes).toOption.map fun image =>
      (Survey.add {} (DebugInfo.read (.ofImage image))).2) = some (some .endless) := by
    decide +kernel
  cases laidOut : Coff.Image.read circleObject.bytes with
  | error fault =>
    rw [laidOut] at endless
    cases endless
  | ok image =>
    rw [laidOut] at endless
    exact ⟨image, laidOut, (Survey.add_read_endless_iff _ {}).mp (Option.some.inj endless)⟩

end Command

end GlobalMap
