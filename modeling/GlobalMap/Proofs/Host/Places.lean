import GlobalMap.Host.Machine
import Mathlib.Data.List.Induction

/-! Where paths lead on a machine held in memory. A path leads to its place through directories, so
it leads there on every machine that still has them. In a tree of files, what stands at a place is
found under the names of the place. -/
namespace GlobalMap

namespace FileTree

/-- A name that something may stand under. -/
structure IsName (name : String) : Prop where
  proper : name ≠ ".."
  short : name.utf8ByteSize ≤ Machine.maxNameSize
  clean : name.toList.contains '\x00' = false

/-- All that stands somewhere stands in a directory, under a name. -/
structure IsTree (files : FileTree) : Prop where
  above : ∀ place ∈ files, place ≠ [] → files[place.dropLast]? = some .directory
  named : ∀ place ∈ files, ∀ name ∈ place, IsName name

variable {files files' : FileTree} {place goal : List String} {name : String}

theorem mem_of_lookup {node : Node} (held : files[place]? = some node) : place ∈ files := by
  rw [Std.ExtTreeMap.mem_iff_isSome_getElem?, held]
  rfl

theorem getElem?_insert_self (node : Node) : (files.insert place node)[place]? = some node :=
  Std.ExtTreeMap.getElem?_insert_self

theorem getElem?_insert_of_ne (node : Node) (other : goal ≠ place) :
    (files.insert place node)[goal]? = files[goal]? := by
  rw [Std.ExtTreeMap.getElem?_insert, if_neg]
  rw [Std.compare_eq_iff_eq]
  exact other.symm

theorem getElem?_erase_self : (files.erase place)[place]? = none :=
  Std.ExtTreeMap.getElem?_erase_self

theorem getElem?_erase_of_ne (other : goal ≠ place) :
    (files.erase place)[goal]? = files[goal]? := by
  rw [Std.ExtTreeMap.getElem?_erase, if_neg]
  rw [Std.compare_eq_iff_eq]
  exact other.symm

theorem mem_insert {node : Node} :
    goal ∈ files.insert place node ↔ goal = place ∨ goal ∈ files := by
  rw [Std.ExtTreeMap.mem_insert, Std.compare_eq_iff_eq, eq_comm]

/-- The root alone is a tree. -/
theorem isTree_root : IsTree ((∅ : FileTree).insert [] .directory) := by
  have only (place : List String) (mem : place ∈ (∅ : FileTree).insert [] .directory) :
      place = [] := by
    rcases mem_insert.mp mem with same | mem
    · exact same
    · exact absurd mem Std.ExtTreeMap.not_mem_empty
  constructor
  · exact fun place mem below => absurd (only place mem) below
  · intro place mem name here
    rw [only place mem] at here
    cases here

/-- A tree with something put under a name of one of its directories is a tree. -/
theorem IsTree.insert_child (tree : files.IsTree) (isName : IsName name)
    (inside : files[place]? = some .directory) (node : Node)
    (stays : files[place ++ [name]]? = some .directory → node = .directory) :
    IsTree (files.insert (place ++ [name]) node) := by
  have directories (p : List String) (held : files[p]? = some .directory) :
      (files.insert (place ++ [name]) node)[p]? = some .directory := by
    by_cases here : p = place ++ [name]
    · subst here
      rw [getElem?_insert_self, stays held]
    · rw [getElem?_insert_of_ne node here, held]
  constructor
  · intro p mem below
    rcases mem_insert.mp mem with rfl | mem
    · rw [List.dropLast_concat]
      exact directories place inside
    · exact directories _ (tree.above p mem below)
  · intro p mem other here
    rcases mem_insert.mp mem with rfl | mem
    · rcases List.mem_append.mp here with here | here
      · exact tree.named place (mem_of_lookup inside) other here
      · rw [List.mem_singleton.mp here]
        exact isName
    · exact tree.named p mem other here

end FileTree

namespace Machine

open FileTree

variable {m m' : Machine} {files files' : FileTree} {place goal : List String} {name : String}
  {path : Path}

/-! ## Steps -/

theorem step_of_directory (inside : files[place]? = some .directory) (isName : IsName name) :
    step files place name = .ok (place ++ [name]) := by
  rw [step, inside]
  exact (if_neg isName.proper).trans (if_neg (Nat.not_lt.mpr isName.short))

theorem step_ok (taken : step files place name = .ok goal) :
    files[place]? = some .directory ∧
      (name = ".." ∧ goal = place.dropLast ∨
        name ≠ ".." ∧ name.utf8ByteSize ≤ maxNameSize ∧ goal = place ++ [name]) := by
  unfold step at taken
  cases held : files[place]? with
  | none =>
    rw [held] at taken
    cases taken
  | some node =>
    rw [held] at taken
    cases node with
    | file contents mode => cases taken
    | directory =>
      refine ⟨rfl, ?_⟩
      by_cases up : name = ".."
      · rw [up] at taken
        cases taken
        exact .inl ⟨up, rfl⟩
      · simp only [up, if_false] at taken
        by_cases long : maxNameSize < name.utf8ByteSize
        · rw [if_pos long] at taken
          cases taken
        · rw [if_neg long] at taken
          cases taken
          exact .inr ⟨up, Nat.not_lt.mp long, rfl⟩

/-- A step is taken wherever the directory that it is taken from stands. -/
theorem step_mono (taken : step files place name = .ok goal)
    (stays : files'[place]? = some .directory) : step files' place name = .ok goal := by
  have inside := (step_ok taken).1
  unfold step at taken ⊢
  rw [inside] at taken
  rw [stays]
  exact taken

theorem steps_mono
    (stay : ∀ p : List String, files[p]? = some .directory → files'[p]? = some .directory)
    (names : List String) (taken : names.foldlM (step files) place = .ok goal) :
    names.foldlM (step files') place = .ok goal := by
  induction names generalizing place with
  | nil => exact taken
  | cons name rest ih =>
    rw [List.foldlM_cons] at taken ⊢
    cases first : step files place name with
    | error refusal =>
      rw [first] at taken
      cases taken
    | ok next =>
      rw [first] at taken
      rw [step_mono first (stay place (step_ok first).1)]
      exact ih taken

/-! ## Paths -/

theorem checkPath_eq_ok :
    checkPath path = .ok () ↔ ∀ name ∈ path.parts, name.toList.contains '\x00' = false := by
  unfold checkPath
  by_cases dirty : (path.parts.any fun name => name.toList.contains '\x00') = true
  · rw [if_pos dirty]
    obtain ⟨name, mem, null⟩ := List.any_eq_true.mp dirty
    constructor
    · intro same
      cases same
    · intro clean
      rw [clean name mem] at null
      cases null
  · rw [if_neg dirty]
    refine ⟨fun _ name mem => ?_, fun _ => rfl⟩
    rw [← Bool.not_eq_true]
    exact fun null => dirty (List.any_eq_true.mpr ⟨name, mem, null⟩)

theorem place_eq_ok :
    m.place path = .ok goal ↔ checkPath path = .ok () ∧
      path.parts.foldlM (step m.files) (m.start path.root) = .ok goal := by
  unfold place
  cases checkPath path with
  | error refusal => exact ⟨fun same => (by cases same), fun both => (by cases both.1)⟩
  | ok _ => exact ⟨fun found => ⟨rfl, found⟩, fun both => both.2⟩

/-- A path leads where it led on every machine that has the directories of the first. -/
theorem place_mono (found : m.place path = .ok goal)
    (stay : ∀ p : List String, m.files[p]? = some .directory → m'.files[p]? = some .directory)
    (working : m'.workingDirectory = m.workingDirectory) : m'.place path = .ok goal := by
  obtain ⟨clean, taken⟩ := place_eq_ok.mp found
  have start : m'.start path.root = m.start path.root := by
    cases path.root with
    | relative => exact working
    | absolute | doubled => rfl
  rw [place_eq_ok, start]
  exact ⟨clean, steps_mono stay path.parts taken⟩

/-- What stands in a tree is found under the names of its place. -/
theorem place_absolute (tree : m.files.IsTree) (stands : place ∈ m.files) :
    m.place ⟨.absolute, place⟩ = .ok place := by
  rw [place_eq_ok, checkPath_eq_ok]
  refine ⟨fun name mem => (tree.named place stands name mem).clean, ?_⟩
  change place.foldlM (step m.files) [] = .ok place
  induction place using List.reverseRecOn with
  | nil => rfl
  | append_singleton front name ih =>
    have inside : m.files[front]? = some .directory := by
      have above := tree.above _ stands (List.append_ne_nil_of_right_ne_nil _ (by simp))
      rwa [List.dropLast_concat] at above
    have isName := tree.named _ stands name (List.mem_append_right _ (.head _))
    rw [List.foldlM_append, ih (mem_of_lookup inside)]
    change step m.files front name >>= pure = _
    rw [step_of_directory inside isName]
    rfl

/-- Where a name inside a directory leads. -/
theorem place_child (found : m.place (path.child name) = .ok goal) :
    name.toList.contains '\x00' = false ∧ ∃ place, m.place path = .ok place ∧
      step m.files place name = .ok goal := by
  obtain ⟨clean, taken⟩ := place_eq_ok.mp found
  rw [checkPath_eq_ok] at clean
  change ∀ other ∈ path.parts ++ [name], other.toList.contains '\x00' = false at clean
  change (path.parts ++ [name]).foldlM (step m.files) (m.start path.root) = .ok goal at taken
  rw [List.foldlM_append] at taken
  refine ⟨clean name (List.mem_append_right _ (.head _)), ?_⟩
  cases first : path.parts.foldlM (step m.files) (m.start path.root) with
  | error refusal =>
    rw [first] at taken
    cases taken
  | ok place =>
    rw [first] at taken
    change step m.files place name >>= pure = _ at taken
    rw [bind_pure] at taken
    refine ⟨place, place_eq_ok.mpr ⟨checkPath_eq_ok.mpr fun other mem => ?_, first⟩, taken⟩
    exact clean other (List.mem_append_left _ mem)

/-! A path that has no null character in it is not refused for one. -/

theorem step_ne_nullCharacter (files : FileTree) (place : List String) (name : String) :
    step files place name ≠ .error .nullCharacter := by
  unfold step
  cases files[place]? with
  | none => exact fun same => by cases same
  | some node =>
    cases node with
    | file contents mode => exact fun same => by cases same
    | directory =>
      dsimp only
      split
      · exact fun same => by cases same
      · split <;> exact fun same => by cases same

theorem steps_ne_nullCharacter (files : FileTree) (place : List String) (names : List String) :
    names.foldlM (step files) place ≠ .error .nullCharacter := by
  induction names generalizing place with
  | nil => exact fun same => by cases same
  | cons name rest ih =>
    rw [List.foldlM_cons]
    cases first : step files place name with
    | error refusal =>
      intro same
      cases same
      exact step_ne_nullCharacter _ _ _ first
    | ok next => exact ih next

theorem place_ne_nullCharacter (clean : checkPath path = .ok ()) :
    m.place path ≠ .error .nullCharacter := by
  unfold place
  rw [clean]
  exact steps_ne_nullCharacter _ _ _

/-! ## New directories -/

/-- Files with nothing but directories added. -/
def Adds (files files' : FileTree) : Prop :=
  ∀ p : List String, files'[p]? = files[p]? ∨ files[p]? = none ∧ files'[p]? = some .directory

theorem Adds.trans {files'' : FileTree} (first : Adds files files') (next : Adds files' files'') :
    Adds files files'' := by
  intro p
  rcases next p with same | ⟨missing, made⟩
  · rw [same]
    exact first p
  · rcases first p with same | ⟨_, there⟩
    · exact .inr ⟨same.symm.trans missing, made⟩
    · rw [there] at missing
      cases missing

theorem enter_ok (tree : files.IsTree) (clean : name.toList.contains '\x00' = false)
    (entered : enter (files, place) name = .ok (files', goal)) :
    files'.IsTree ∧ Adds files files' := by
  unfold enter at entered
  cases taken : step files place name with
  | error refusal =>
    rw [taken] at entered
    cases entered
  | ok next =>
    cases held : files[next]? with
    | some node =>
      simp only [taken, bind, Except.bind, held] at entered
      cases node with
      | file contents mode => cases entered
      | directory =>
        cases entered
        exact ⟨tree, fun p => .inl rfl⟩
    | none =>
      simp only [taken, bind, Except.bind, held] at entered
      cases entered
      obtain ⟨inside, ⟨rfl, up⟩ | ⟨proper, short, rfl⟩⟩ := step_ok taken
      · -- The directory above is there already, unless this is the root.
        by_cases root : place = []
        · rw [up, root, List.dropLast_nil, ← root, inside] at held
          cases held
        · rw [up, tree.above place (mem_of_lookup inside) root] at held
          cases held
      · refine ⟨tree.insert_child ⟨proper, short, clean⟩ inside _ fun _ => rfl, fun p => ?_⟩
        by_cases here : p = place ++ [name]
        · subst here
          exact .inr ⟨held, getElem?_insert_self _⟩
        · exact .inl (getElem?_insert_of_ne _ here)

theorem enterAll_ok (tree : files.IsTree) {names : List String}
    (clean : ∀ name ∈ names, name.toList.contains '\x00' = false)
    (entered : names.foldlM enter (files, place) = .ok (files', goal)) :
    files'.IsTree ∧ Adds files files' := by
  induction names generalizing files place with
  | nil =>
    cases entered
    exact ⟨tree, fun p => .inl rfl⟩
  | cons name rest ih =>
    rw [List.foldlM_cons] at entered
    cases first : enter (files, place) name with
    | error refusal =>
      rw [first] at entered
      cases entered
    | ok next =>
      rw [first] at entered
      obtain ⟨between, here⟩ := next
      obtain ⟨tree', adds⟩ := enter_ok tree (clean name (.head _)) first
      obtain ⟨tree'', adds'⟩ := ih tree' (fun other mem => clean other (.tail _ mem)) entered
      exact ⟨tree'', adds.trans adds'⟩

theorem makeDirectories_ok (tree : m.files.IsTree) (made : m.makeDirectories path = .ok m') :
    ∃ files, m' = { m with files } ∧ files.IsTree ∧ Adds m.files files := by
  unfold makeDirectories at made
  cases checked : checkPath path with
  | error refusal =>
    rw [checked] at made
    cases made
  | ok _ =>
    cases entered : path.parts.foldlM enter (m.files, m.start path.root) with
    | error refusal =>
      rw [checked, entered] at made
      cases made
    | ok row =>
      rw [checked, entered] at made
      obtain ⟨files, goal⟩ := row
      cases made
      exact ⟨files, rfl, enterAll_ok tree (checkPath_eq_ok.mp checked) entered⟩

end Machine

end GlobalMap
