import GlobalMap.Journal.Logging
import GlobalMap.Proofs.Host.Programs
import GlobalMap.Proofs.Host.Records

/-! Setting up the records of a run. Directories and a log file may be made for them; whatever stood
anywhere stands there still. -/
namespace GlobalMap

open FileTree OnMachine

namespace Machine

variable {m m' base : Machine} {directory path : Path} {place : List String}
  {log : Option (List String)}

/-- The contents and the permission bits of the file at a place. -/
def file? (m : Machine) (place : List String) : Option (Bytes × Nat) :=
  match m.files[place]? with
  | some (.file contents mode) => some (contents, mode)
  | _ => none

/-- The place of a log file in a directory, once the directory has been made. -/
def logPlace? (m : Machine) (directory : Option Path) : Option (List String) := do
  let directory ← directory
  let made ← (m.makeDirectories directory).toOption
  (made.place (directory.child (Logging.fileName fixedStamp))).toOption

/-- A machine on which records may have been given a log file, and nothing else has happened to the
files. -/
structure Prepared (m base : Machine) (log : Option (List String)) : Prop where
  sound : base.Sound
  working : base.workingDirectory = m.workingDirectory
  kept : base.kept = none ∨ base.kept = log
  stays : ∀ (place : List String) (node : Node), m.files[place]? = some node →
    base.files[place]? = some node
  made : ∀ place : List String, m.files[place]? = none → log ≠ some place →
    base.file? place = none

theorem Prepared.file?_eq (prepared : Prepared m base log) (other : log ≠ some place) :
    base.file? place = m.file? place := by
  cases held : m.files[place]? with
  | some node => rw [file?, file?, prepared.stays place node held, held]
  | none =>
    rw [prepared.made place held other, file?, held]

theorem Prepared.place_eq {goal : List String} (prepared : Prepared m base log)
    (leads : m.place path = .ok goal) : base.place path = .ok goal :=
  place_mono leads (fun p held => prepared.stays p _ held) prepared.working

/-! ## Opening a log file -/

theorem keepRecords_ok {name : String} (tree : m.files.IsTree) (proper : name ≠ "..")
    (opened : m.keepRecords (path.child name) = .ok m') :
    ∃ place : List String, m.place (path.child name) = .ok place ∧
      Prepared m m' (some place) := by
  unfold keepRecords at opened
  cases leads : m.place (path.child name) with
  | error refusal =>
    rw [leads] at opened
    cases opened
  | ok place =>
    refine ⟨place, rfl, ?_⟩
    rcases held : m.files[place]? with _ | (_ | ⟨contents, mode⟩)
    · obtain ⟨clean, inside, _, taken⟩ := place_child leads
      obtain ⟨stands, ⟨up, _⟩ | ⟨_, short, rfl⟩⟩ := step_ok taken
      · exact absurd up proper
      simp only [leads, bind, Except.bind, held, List.dropLast_concat, stands] at opened
      cases opened
      refine ⟨⟨?_, fun log same => ?_⟩, rfl, .inr rfl, fun p node there => ?_,
        fun p free other => ?_⟩
      · exact tree.insert_child ⟨proper, short, clean⟩ stands _ fun there => by
          rw [held] at there
          cases there
      · cases same
        exact mem_insert.mpr (.inl rfl)
      · have apart : p ≠ inside ++ [name] := by
          rintro rfl
          rw [held] at there
          cases there
        exact (getElem?_insert_of_ne _ apart).trans there
      · have apart : p ≠ inside ++ [name] := fun same => other (congrArg some same.symm)
        rw [file?, setNode, getElem?_insert_of_ne _ apart, free]
    · simp only [leads, bind, Except.bind, held] at opened
      cases opened
    · simp only [leads, bind, Except.bind, held] at opened
      cases opened
      refine ⟨⟨tree, fun log same => ?_⟩, rfl, .inr rfl, fun p node there => there,
        fun p free _ => ?_⟩
      · cases same
        exact mem_of_lookup held
      · rw [file?, free]

/-- New directories are no files. -/
theorem prepared_of_makeDirectories (tree : m.files.IsTree) (idle : m.kept = none)
    (made : m.makeDirectories directory = .ok base) : Prepared m base log := by
  obtain ⟨files, rfl, tree', adds⟩ := makeDirectories_ok tree made
  refine ⟨⟨tree', fun log same => ?_⟩, rfl, .inl idle, fun p node held => ?_, fun p free _ => ?_⟩
  · cases idle.symm.trans same
  · rcases adds p with same | ⟨missing, _⟩
    · exact same.trans held
    · rw [held] at missing
      cases missing
  · rcases adds p with same | ⟨_, there⟩
    · rw [file?, same, free]
    · rw [file?, there]

theorem Prepared.refl (tree : m.files.IsTree) (idle : m.kept = none) : Prepared m m log :=
  ⟨⟨tree, fun log same => by cases idle.symm.trans same⟩, rfl, .inl idle, fun _ _ held => held,
    fun p free _ => by rw [file?, free]⟩

theorem Prepared.trans {last : Machine} (first : Prepared m base log)
    (next : Prepared base last log) : Prepared m last log where
  sound := next.sound
  working := next.working.trans first.working
  kept := next.kept
  stays p node held := next.stays p node (first.stays p node held)
  made p free other := by
    rw [next.file?_eq other]
    exact first.made p free other

theorem keep_prepares (tree : m.files.IsTree) (idle : m.kept = none) (l : Logging)
    (directory : Path) :
    ∃ outcome base, (l.keep directory : OnMachine _) m = (outcome, base) ∧
      Prepared m base (m.logPlace? (some directory)) := by
  cases made : m.makeDirectories directory with
  | error refusal =>
    have refused := request_error (Machine.makeDirectories · directory) made
    exact ⟨_, m, run_bind refused, .refl tree idle⟩
  | ok between =>
    have asked := request_ok (Machine.makeDirectories · directory) made
    have between' : Prepared m between (m.logPlace? (some directory)) :=
      prepared_of_makeDirectories tree idle made
    cases opened : between.keepRecords (directory.child (Logging.fileName fixedStamp)) with
    | error refusal =>
      have refused := request_error
        (Machine.keepRecords · (directory.child (Logging.fileName fixedStamp))) opened
      exact ⟨_, between, (run_bind asked).trans ((run_bind rfl).trans (run_bind refused)), between'⟩
    | ok base =>
      have kept := request_ok
        (Machine.keepRecords · (directory.child (Logging.fileName fixedStamp))) opened
      obtain ⟨place, leads, prepared⟩ :=
        keepRecords_ok between'.sound.tree (by decide) opened
      have log : m.logPlace? (some directory) = some place := by
        change ((m.makeDirectories directory).toOption >>= fun made =>
          (made.place (directory.child (Logging.fileName fixedStamp))).toOption) = _
        rw [made]
        exact congrArg Except.toOption leads
      rw [log] at between' ⊢
      exact ⟨_, base, (run_bind asked).trans ((run_bind rfl).trans (run_bind kept)),
        between'.trans prepared⟩

/-- A machine that shows records from a level on and keeps none. -/
def showing (m : Machine) (level : Level) : Machine :=
  { m with shown := some level, kept := none }

theorem logPlace?_showing (m : Machine) (level : Level) (directory : Option Path) :
    (m.showing level).logPlace? directory = m.logPlace? directory := by
  cases directory with
  | none => rfl
  | some path =>
    have made : (m.showing level).makeDirectories path =
        (m.makeDirectories path).map fun made => made.showing level := by
      unfold makeDirectories
      cases checkPath path with
      | error refusal => rfl
      | ok _ =>
        change (path.parts.foldlM enter (m.files, m.start path.root) >>= _) =
          (path.parts.foldlM enter (m.files, m.start path.root) >>= _).map _
        cases path.parts.foldlM enter (m.files, m.start path.root) <;> rfl
    change (((m.showing level).makeDirectories path).toOption >>= _) =
      ((m.makeDirectories path).toOption >>= _)
    rw [made]
    cases m.makeDirectories path <;> rfl

theorem Prepared.of_showing {level : Level} (prepared : Prepared (m.showing level) base log) :
    Prepared m base log :=
  ⟨prepared.sound, prepared.working, prepared.kept, prepared.stays, prepared.made⟩

/-- What setting up does once the log file has been opened or refused. -/
def finish (verbose : Bool) (row : Except Refusal Unit × Logging) :
    OnMachine (Except Refusal Unit × Logging) :=
  match row.1 with
  | .error refusal => return (.error refusal, row.2)
  | .ok () => do
    row.2.announce verbose
    return (.ok (), { row.2 with initialized := true })

/-- **Setting up changes no file but the log file.** -/
theorem setUp_prepares (tree : m.files.IsTree) (directory : Option Path) (verbose : Bool) :
    ∃ outcome base records,
      (Logging.setUp {} directory verbose : OnMachine _) m = (outcome, base.emitAll records) ∧
      Prepared m base (m.logPlace? directory) := by
  let level := Logging.shownLevel verbose
  let l : Logging := { shown := some level }
  cases directory with
  | none =>
    have idle : Prepared (m.showing level) (m.showing level) none := .refl tree rfl
    exact ⟨_, m.showing level, [_], rfl, idle.of_showing⟩
  | some directory =>
    obtain ⟨⟨result, l'⟩, base, keeps, prepared⟩ :=
      keep_prepares (m := m.showing level) tree rfl l directory
    rw [logPlace?_showing] at prepared
    have begun : (Logging.setUp {} (some directory) verbose : OnMachine _) m =
        (l.keep directory >>= finish verbose) (m.showing level) := rfl
    rw [run_bind keeps] at begun
    cases result with
    | error refusal => exact ⟨_, base, [], begun, prepared.of_showing⟩
    | ok _ =>
      obtain ⟨initialized, shown, keeping, file⟩ := l'
      cases file with
      | none => exact ⟨_, base, [_], begun, prepared.of_showing⟩
      | some path => exact ⟨_, base, [_, _], begun, prepared.of_showing⟩

end Machine

end GlobalMap
