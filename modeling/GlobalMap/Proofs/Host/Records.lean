import GlobalMap.Proofs.Host.Places

/-! What handing in records does to a machine. The file that records are written to gets longer by
their lines, and all else stands as before. -/
namespace GlobalMap

/-- What stands at a place once bytes have been added behind it, if it is a file. -/
def Node.behind (more : Bytes) : Node → Node
  | .directory => .directory
  | .file contents mode => .file (contents ++ more) mode

namespace Node

theorem behind_nil (node : Node) : node.behind [] = node := by
  cases node with
  | directory => rfl
  | file contents mode => exact congrArg (file · mode) (List.append_nil contents)

theorem map_behind_nil (found : Option Node) : found.map (behind []) = found := by
  cases found with
  | none => rfl
  | some node => exact congrArg some node.behind_nil

theorem behind_behind (node : Node) (more rest : Bytes) :
    (node.behind more).behind rest = node.behind (more ++ rest) := by
  cases node with
  | directory => rfl
  | file contents mode => exact congrArg (file · mode) (List.append_assoc contents more rest)

theorem behind_eq_directory {node : Node} {more : Bytes} :
    node.behind more = .directory ↔ node = .directory := by
  cases node with
  | directory => exact Iff.rfl
  | file contents mode => exact ⟨fun same => (by cases same), fun same => (by cases same)⟩

end Node

namespace Machine

/-- A machine after records have been handed in to it. -/
def emitAll (m : Machine) (records : List Record) : Machine :=
  records.foldl emit m

theorem emitAll_append (m : Machine) (records more : List Record) :
    m.emitAll (records ++ more) = (m.emitAll records).emitAll more :=
  List.foldl_append

/-- The bytes that a record is written as. -/
def lineOf (r : Record) : Bytes :=
  (r.fileLine fixedTime ++ "\n").toUTF8.toList

/-- The bytes that records add to the file at a place. -/
def linesAt (m : Machine) (place : List String) (records : List Record) : Bytes :=
  if m.kept = some place then records.flatMap lineOf else []

theorem linesAt_of_ne {m : Machine} {place : List String} (other : m.kept ≠ some place)
    (records : List Record) : m.linesAt place records = [] :=
  if_neg other

theorem linesAt_cons {m m' : Machine} (same : m'.kept = m.kept) (place : List String) (r : Record)
    (rest : List Record) :
    m.linesAt place (r :: rest) = m.linesAt place [r] ++ m'.linesAt place rest := by
  unfold linesAt
  rw [same]
  by_cases here : m.kept = some place
  · rw [if_pos here, if_pos here, if_pos here, List.flatMap_singleton, List.flatMap_cons]
  · rw [if_neg here, if_neg here, if_neg here, List.append_nil]

theorem showRecord_eq (m : Machine) (r : Record) :
    ∃ console, m.showRecord r = { m with console } := by
  unfold showRecord
  by_cases shown : m.shown.any r.isShown = true
  · exact ⟨_, if_pos shown⟩
  · exact ⟨m.console, if_neg shown⟩

/-- A line is added to the file at its place, if there is one. -/
theorem appendLine_eq (m : Machine) (place : List String) (line : String) :
    ∃ files : FileTree, m.appendLine place line = { m with files } ∧
      files[place]? = m.files[place]?.map (Node.behind (line ++ "\n").toUTF8.toList) ∧
      ∀ goal : List String, goal ≠ place → files[goal]? = m.files[goal]? := by
  unfold appendLine
  cases held : m.files[place]? with
  | none => exact ⟨m.files, rfl, held, fun goal _ => rfl⟩
  | some node =>
    cases node with
    | directory => exact ⟨m.files, rfl, held, fun goal _ => rfl⟩
    | file contents mode =>
      exact ⟨_, rfl, FileTree.getElem?_insert_self _,
        fun goal other => FileTree.getElem?_insert_of_ne _ other⟩

theorem keepRecord_eq (m : Machine) (r : Record) :
    ∃ files : FileTree, m.keepRecord r = { m with files } ∧ ∀ place : List String,
      files[place]? = m.files[place]?.map (Node.behind (m.linesAt place [r])) := by
  unfold keepRecord
  split
  next log kept =>
    obtain ⟨files, same, here, elsewhere⟩ := m.appendLine_eq log (r.fileLine fixedTime)
    refine ⟨files, same, fun place => ?_⟩
    by_cases there : place = log
    · rw [there, here, linesAt, if_pos kept, List.flatMap_singleton]
      rfl
    · have other : m.kept ≠ some place := fun both =>
        there (Option.some.inj (both.symm.trans kept))
      rw [elsewhere place there, linesAt_of_ne other, Node.map_behind_nil]
  next kept =>
    refine ⟨m.files, rfl, fun place => ?_⟩
    have other : m.kept ≠ some place := by
      rw [kept]
      exact fun same => by cases same
    rw [linesAt_of_ne other, Node.map_behind_nil]

/-- Records change the files of a machine, and what has been recorded and shown. -/
theorem emitAll_eq (m : Machine) (records : List Record) :
    ∃ (files : FileTree) (recorded : List Record) (console : List String),
      m.emitAll records = { m with files, records := recorded, console } ∧ ∀ place : List String,
        files[place]? = m.files[place]?.map (Node.behind (m.linesAt place records)) := by
  induction records generalizing m with
  | nil =>
    refine ⟨m.files, m.records, m.console, rfl, fun place => ?_⟩
    have nothing : m.linesAt place [] = [] := by
      unfold linesAt
      split <;> rfl
    rw [nothing, Node.map_behind_nil]
  | cons r rest ih =>
    obtain ⟨console, shown⟩ := showRecord_eq { m with records := m.records ++ [r] } r
    obtain ⟨files, kept, lines⟩ := keepRecord_eq
      { m with records := m.records ++ [r], console } r
    have once : m.emit r = { m with files, records := m.records ++ [r], console } := by
      rw [emit, shown, kept]
    obtain ⟨files', recorded, console', more, lines'⟩ := ih (m.emit r)
    refine ⟨files', recorded, console', ?_, fun place => ?_⟩
    · change (m.emit r).emitAll rest = _
      rw [more, once]
    · have same : (m.emit r).kept = m.kept := by rw [once]
      have here : (m.emit r).files = files := by rw [once]
      rw [lines', here, lines, linesAt_cons same, Option.map_map]
      congr 1
      funext node
      exact node.behind_behind _ _

theorem kept_emitAll (m : Machine) (records : List Record) :
    (m.emitAll records).kept = m.kept := by
  obtain ⟨_, _, _, same, _⟩ := emitAll_eq m records
  rw [same]

theorem workingDirectory_emitAll (m : Machine) (records : List Record) :
    (m.emitAll records).workingDirectory = m.workingDirectory := by
  obtain ⟨_, _, _, same, _⟩ := emitAll_eq m records
  rw [same]

/-- The file that records are written to gets longer by them, and nothing else changes. -/
theorem getElem?_emitAll (m : Machine) (records : List Record) (place : List String) :
    (m.emitAll records).files[place]? =
      m.files[place]?.map (Node.behind (m.linesAt place records)) := by
  obtain ⟨files, _, _, same, lines⟩ := emitAll_eq m records
  rw [same]
  exact lines place

theorem mem_emitAll {m : Machine} {records : List Record} {place : List String} :
    place ∈ (m.emitAll records).files ↔ place ∈ m.files := by
  rw [Std.ExtTreeMap.mem_iff_isSome_getElem?, Std.ExtTreeMap.mem_iff_isSome_getElem?,
    getElem?_emitAll, Option.isSome_map]

theorem directory_emitAll {m : Machine} {records : List Record} {place : List String} :
    (m.emitAll records).files[place]? = some .directory ↔ m.files[place]? = some .directory := by
  rw [getElem?_emitAll, Option.map_eq_some_iff]
  constructor
  · rintro ⟨node, held, same⟩
    rw [held, Node.behind_eq_directory.mp same]
  · exact fun held => ⟨.directory, held, rfl⟩

/-- A machine whose files are a tree, and whose records go to a file of it if they go to one. -/
structure Sound (m : Machine) : Prop where
  tree : m.files.IsTree
  stands : ∀ log : List String, m.kept = some log → log ∈ m.files

theorem Sound.emitAll {m : Machine} (sound : m.Sound) (records : List Record) :
    (m.emitAll records).Sound where
  tree :=
    { above := fun place mem below =>
        directory_emitAll.mpr (sound.tree.above place (mem_emitAll.mp mem) below)
      named := fun place mem => sound.tree.named place (mem_emitAll.mp mem) }
  stands log kept := by
    rw [kept_emitAll] at kept
    exact mem_emitAll.mpr (sound.stands log kept)

/-! Records add to the contents of one file. No place is taken by them or given up, and no directory
becomes a file, so a machine goes on as it would without them. -/

theorem refuses_emitAll (m : Machine) (records : List Record) :
    (m.emitAll records).refuses = m.refuses := by
  obtain ⟨_, _, _, same, _⟩ := emitAll_eq m records
  rw [same]

theorem contains_emitAll (m : Machine) (records : List Record) (place : List String) :
    (m.emitAll records).files.contains place = m.files.contains place := by
  rw [Bool.eq_iff_iff]
  exact mem_emitAll

theorem size_emitAll (m : Machine) (records : List Record) :
    (m.emitAll records).files.size = m.files.size := by
  have same : (m.emitAll records).files =
      m.files.map fun place node => node.behind (m.linesAt place records) :=
    Std.ExtTreeMap.ext_getElem? fun place => by
      rw [getElem?_emitAll, Std.ExtTreeMap.getElem?_map]
  rw [same, Std.ExtTreeMap.size_map]

theorem step_emitAll (m : Machine) (records : List Record) :
    step (m.emitAll records).files = step m.files := by
  funext place name
  unfold step
  rw [getElem?_emitAll]
  cases m.files[place]? with
  | none => rfl
  | some node => cases node <;> rfl

/-- Records do not change where a path leads. -/
theorem place_emitAll_eq (m : Machine) (records : List Record) (path : Path) :
    (m.emitAll records).place path = m.place path := by
  have start : (m.emitAll records).start path.root = m.start path.root := by
    unfold Machine.start
    rw [workingDirectory_emitAll]
  unfold place
  rw [step_emitAll, start]

theorem place_emitAll {m : Machine} {records : List Record} {path : Path} {goal : List String} :
    (m.emitAll records).place path = .ok goal ↔ m.place path = .ok goal := by
  rw [place_emitAll_eq]

theorem freshName?_emitAll (m : Machine) (records : List Record) (directory : List String)
    (before after : String) :
    (m.emitAll records).freshName? directory before after =
      m.freshName? directory before after := by
  unfold freshName?
  rw [size_emitAll]
  simp only [contains_emitAll]

/-- A temporary file is refused with records as it is without. -/
theorem createTemporary_emitAll {m : Machine} {records : List Record} {directory : Path}
    {before after : String} {refusal : Refusal} :
    (m.emitAll records).createTemporary directory before after = .error refusal ↔
      m.createTemporary directory before after = .error refusal := by
  unfold createTemporary
  rw [refuses_emitAll, place_emitAll_eq, step_emitAll]
  simp only [freshName?_emitAll]
  cases checkPath (directory.child (before ++ after)) with
  | error refusal => exact Iff.rfl
  | ok _ =>
    by_cases refused : m.refuses .createTemporary = true
    · rw [if_pos refused, if_pos refused]
      exact Iff.rfl
    rw [if_neg refused, if_neg refused]
    cases m.place directory with
    | error refusal => exact Iff.rfl
    | ok inside =>
      simp only [bind, Except.bind, pure, Except.pure]
      cases m.freshName? inside before after with
      | none => exact Iff.rfl
      | some name =>
        -- What is made differs by the records, but a step is refused in the same words.
        dsimp only
        cases step m.files inside name with
        | error refusal => exact Iff.rfl
        | ok place => exact ⟨fun same => (by cases same), fun same => (by cases same)⟩

end Machine

end GlobalMap
