import GlobalMap.Proofs.Host.Places

/-! Temporary files on a machine held in memory. While such a file is there the machine differs from
what it was by that file alone. Removing it leaves no trace, and moving it over another puts its
contents in the place of that. -/
namespace GlobalMap

namespace Text

theorem clean_toDigits (n : Nat) : ∀ c ∈ Nat.toDigits 16 n, c ≠ '\x00' := by
  have digit : ∀ k < 16, Nat.digitChar k ≠ '\x00' := by decide
  induction n using Nat.strongRecOn with
  | ind n ih =>
    intro c mem
    rw [Nat.toDigits_eq_if (by decide)] at mem
    split at mem
    next small =>
      rw [List.mem_singleton.mp mem]
      exact digit n small
    next large =>
      rcases List.mem_append.mp mem with mem | mem
      · exact ih (n / 16) (by omega) c mem
      · rw [List.mem_singleton.mp mem]
        exact digit _ (Nat.mod_lt _ (by decide))

theorem clean_hexPadded (width n : Nat) : '\x00' ∉ (hexPadded width n).toList := by
  rw [hexPadded, String.toList_ofList, List.mem_append]
  rintro (zero | digit)
  · exact absurd (List.eq_of_mem_replicate zero) (by decide)
  · exact clean_toDigits n _ digit rfl

theorem le_length_hexPadded (width n : Nat) : width ≤ (hexPadded width n).length := by
  simp only [hexPadded, String.length_ofList, List.length_append, List.length_replicate]
  omega

end Text

namespace Machine

open FileTree

variable {m m' : Machine} {path : Path} {place goal : List String} {contents : Bytes} {mode : Nat}

/-! ## Making -/

theorem freshName?_eq_some {directory : List String} {before after name : String}
    (found : m.freshName? directory before after = some name) :
    m.files[directory ++ [name]]? = none ∧ ∃ n, name = before ++ Text.hexPadded 8 n ++ after := by
  have mem := List.mem_of_find?_eq_some found
  have free := List.find?_some found
  obtain ⟨n, _, rfl⟩ := List.mem_map.mp mem
  refine ⟨?_, n, rfl⟩
  rw [Bool.not_eq_true'] at free
  exact Std.ExtTreeMap.getElem?_eq_none_of_contains_eq_false free

theorem proper_fresh (before after : String) (n : Nat) :
    before ++ Text.hexPadded 8 n ++ after ≠ ".." := by
  intro same
  have long := Text.le_length_hexPadded 8 n
  have length := congrArg String.length same
  rw [String.length_append, String.length_append] at length
  have two : "..".length = 2 := rfl
  omega

theorem clean_fresh {before after : String}
    (clean : (before ++ after).toList.contains '\x00' = false) (n : Nat) :
    (before ++ Text.hexPadded 8 n ++ after).toList.contains '\x00' = false := by
  have digits := Text.clean_hexPadded 8 n
  simp only [List.contains_eq_mem, decide_eq_false_iff_not, String.toList_append,
    List.mem_append, not_or] at clean ⊢
  exact ⟨⟨clean.1, digits⟩, clean.2⟩

/-- A temporary file has been made under a name in a directory, and nothing stood there before. -/
structure Makes (m : Machine) (directory : Path) (before after : String) (inside : List String)
    (name : String) : Prop where
  clean : checkPath (directory.child (before ++ after)) = .ok ()
  leads : m.place directory = .ok inside
  stands : m.files[inside]? = some .directory
  free : m.files[inside ++ [name]]? = none
  spelled : ∃ n, name = before ++ Text.hexPadded 8 n ++ after
  short : name.utf8ByteSize ≤ maxNameSize

section Making

variable {directory temporary : Path} {before after : String}

theorem createTemporary_makes
    (created : m.createTemporary directory before after = .ok (temporary, m')) :
    ∃ inside name, m.Makes directory before after inside name ∧
      temporary = ⟨.absolute, inside ++ [name]⟩ ∧
      m' = m.setNode (inside ++ [name]) (.file [] Permission.ownerOnly) := by
  unfold createTemporary at created
  cases checked : checkPath (directory.child (before ++ after)) with
  | error refusal =>
    rw [checked] at created
    cases created
  | ok _ =>
    rw [checked] at created
    by_cases refused : m.refuses .createTemporary = true
    · simp only [refused] at created
      cases created
    cases found : m.place directory with
    | error refusal =>
      simp only [refused, found] at created
      cases created
    | ok inside =>
      cases fresh : m.freshName? inside before after with
      | none =>
        simp only [refused, found, bind, Except.bind, fresh] at created
        cases created
      | some name =>
        obtain ⟨free, n, spelled⟩ := freshName?_eq_some fresh
        cases taken : step m.files inside name with
        | error refusal =>
          simp only [refused, found, bind, Except.bind, fresh, taken] at created
          cases created
        | ok place =>
          simp only [refused, found, bind, Except.bind, fresh, taken] at created
          cases created
          have proper : name ≠ ".." := spelled ▸ proper_fresh before after n
          obtain ⟨stands, ⟨up, _⟩ | ⟨_, short, rfl⟩⟩ := step_ok taken
          · exact absurd up proper
          · exact ⟨inside, name, ⟨checked, found, stands, free, ⟨n, spelled⟩, short⟩, rfl, rfl⟩

theorem createTemporary_ne_nullCharacter
    (clean : checkPath (directory.child (before ++ after)) = .ok ()) :
    m.createTemporary directory before after ≠ .error .nullCharacter := by
  have above : checkPath directory = .ok () := checkPath_eq_ok.mpr fun name mem =>
    checkPath_eq_ok.mp clean name (List.mem_append_left _ mem)
  unfold createTemporary
  rw [clean]
  by_cases told : m.refuses .createTemporary = true
  · rw [if_pos told]
    exact fun same => by cases same
  rw [if_neg told]
  cases leads : m.place directory with
  | error refusal =>
    intro same
    cases same
    exact place_ne_nullCharacter above leads
  | ok inside =>
    simp only [bind, Except.bind, pure, Except.pure]
    cases m.freshName? inside before after with
    | none => exact fun same => by cases same
    | some name =>
      dsimp only
      cases taken : step m.files inside name with
      | error refusal =>
        intro same
        cases same
        exact step_ne_nullCharacter _ _ _ taken
      | ok place => exact fun same => by cases same

/-- The files with a temporary file are a tree. -/
theorem Makes.isTree {inside : List String} {name : String}
    (makes : m.Makes directory before after inside name) (tree : m.files.IsTree)
    (contents : Bytes) (mode : Nat) :
    IsTree (m.files.insert (inside ++ [name]) (.file contents mode)) := by
  obtain ⟨n, spelled⟩ := makes.spelled
  have clean : (before ++ after).toList.contains '\x00' = false :=
    checkPath_eq_ok.mp makes.clean _ (List.mem_append_right _ (.head _))
  have isName : IsName name :=
    ⟨spelled ▸ proper_fresh before after n, makes.short, spelled ▸ clean_fresh clean n⟩
  refine tree.insert_child isName makes.stands _ fun held => ?_
  rw [makes.free] at held
  cases held

/-- A shorter name leads from a directory to something else than a longer one. -/
theorem step_beside {inside : List String} {own name : String}
    (stands : m.files[inside]? = some .directory) (short : name.utf8ByteSize ≤ maxNameSize)
    (shorter : own.utf8ByteSize < name.utf8ByteSize) :
    ∃ goal, step m.files inside own = .ok goal ∧ goal ≠ inside ++ [name] := by
  rw [step, stands]
  by_cases up : own = ".."
  · refine ⟨inside.dropLast, if_pos up, fun same => ?_⟩
    have length := congrArg List.length same
    rw [List.length_dropLast, List.length_append, List.length_singleton] at length
    omega
  · refine ⟨inside ++ [own], (if_neg up).trans (if_neg (by omega)), fun same => ?_⟩
    rw [List.append_cancel_left_eq, List.singleton_inj] at same
    rw [same] at shorter
    omega

/-- A path beside which a temporary file has been made leads somewhere, and not to that file: its
own name is shorter, or it leads to a directory above. -/
theorem Makes.place_target {inside : List String} {name : String}
    (makes : m.Makes path.parent ("." ++ path.name?.getD "" ++ ".") ".tmp" inside name) :
    ∃ goal, m.place path = .ok goal ∧ goal ≠ inside ++ [name] := by
  obtain ⟨_, leads⟩ := place_eq_ok.mp makes.leads
  have clean := checkPath_eq_ok.mp makes.clean
  cases last : path.name? with
  | none =>
    have nothing : path.parts = [] := List.getLast?_eq_none_iff.mp last
    refine ⟨inside, place_eq_ok.mpr ⟨checkPath_eq_ok.mpr ?_, ?_⟩, by simp⟩
    · simp [nothing]
    · rw [Path.parent, nothing] at leads
      rw [nothing]
      exact leads
  | some own =>
    rw [last, Option.getD_some] at makes clean
    obtain ⟨front, parts⟩ := List.getLast?_eq_some_iff.mp last
    have above : path.parent.parts = front := by rw [Path.parent, parts, List.dropLast_concat]
    have ownClean : own.toList.contains '\x00' = false := by
      have spelled := clean _ (List.mem_append_right _ (.head _))
      simp only [List.contains_eq_mem, decide_eq_false_iff_not, String.toList_append,
        List.mem_append, not_or] at spelled ⊢
      exact spelled.1.1.2
    have shorter : own.utf8ByteSize < name.utf8ByteSize := by
      obtain ⟨n, rfl⟩ := makes.spelled
      have dot : ".".utf8ByteSize = 1 := rfl
      simp only [String.utf8ByteSize_append]
      omega
    obtain ⟨goal, taken, apart⟩ := step_beside makes.stands makes.short shorter
    refine ⟨goal, place_eq_ok.mpr ⟨checkPath_eq_ok.mpr ?_, ?_⟩, apart⟩
    · rw [parts, ← above]
      exact List.forall_mem_append.mpr ⟨fun other mem => clean other (List.mem_append_left _ mem),
        List.forall_mem_singleton.mpr ownClean⟩
    · rw [above] at leads
      change front.foldlM (step m.files) (m.start path.root) = _ at leads
      rw [parts, List.foldlM_append, leads]
      change step m.files inside own >>= pure = _
      rw [taken]
      rfl

end Making

/-! ## Filling, removing and moving -/

/-- What was put where nothing stood is gone without a trace once it is taken away. -/
theorem erase_insert {files : FileTree} {node : Node} (free : files[place]? = none) :
    (files.insert place node).erase place = files := by
  refine Std.ExtTreeMap.ext_getElem? fun goal => ?_
  by_cases here : goal = place
  · rw [here, getElem?_erase_self, free]
  · rw [getElem?_erase_of_ne here, getElem?_insert_of_ne _ here]

theorem setNode_setNode (m : Machine) (place : List String) (node node' : Node) :
    (m.setNode place node).setNode place node' = m.setNode place node' := by
  have same : (m.files.insert place node).insert place node' = m.files.insert place node' := by
    refine Std.ExtTreeMap.ext_getElem? fun goal => ?_
    by_cases here : goal = place
    · rw [here, getElem?_insert_self, getElem?_insert_self]
    · rw [getElem?_insert_of_ne _ here, getElem?_insert_of_ne _ here, getElem?_insert_of_ne _ here]
  simp only [setNode, same]

theorem fileAt_of_file (leads : m.place path = .ok place)
    (held : m.files[place]? = some (.file contents mode)) :
    m.fileAt path = .ok (place, contents, mode) := by
  simp only [fileAt, leads, bind, Except.bind, held]

theorem fileAt_setNode (tree : IsTree (m.files.insert place (.file contents mode))) :
    (m.setNode place (.file contents mode)).fileAt ⟨.absolute, place⟩ =
      .ok (place, contents, mode) := by
  have stands : place ∈ (m.setNode place (.file contents mode)).files :=
    mem_insert.mpr (.inl rfl)
  have held : (m.setNode place (.file contents mode)).files[place]? =
      some (.file contents mode) := getElem?_insert_self _
  exact fileAt_of_file (place_absolute tree stands) held

section Held

variable (tree : IsTree (m.files.insert place (.file contents mode)))

include tree

theorem writeTemporary_setNode (more : Bytes) :
    (m.refuses .writeTemporary = true ∧
      (m.setNode place (.file contents mode)).writeTemporary ⟨.absolute, place⟩ more =
        .error (.other "refused")) ∨
      (m.setNode place (.file contents mode)).writeTemporary ⟨.absolute, place⟩ more =
        .ok (m.setNode place (.file more mode)) := by
  unfold writeTemporary
  rw [fileAt_setNode tree]
  split
  next refused => exact .inl ⟨refused, rfl⟩
  next => exact .inr (congrArg Except.ok (setNode_setNode _ _ _ _))

/-- Some of the contents are in a temporary file that could not be written. -/
theorem breakOff_setNode (more : Bytes) :
    (m.setNode place (.file contents mode)).breakOff ⟨.absolute, place⟩ more =
      m.setNode place (.file (more.take m.refusesAfter) mode) := by
  unfold breakOff
  rw [fileAt_setNode tree]
  exact setNode_setNode _ _ _ _

theorem setMode_setNode (bits : Nat) :
    (m.refuses .setMode = true ∧
      (m.setNode place (.file contents mode)).setMode ⟨.absolute, place⟩ bits =
        .error (.other "refused")) ∨
      (m.setNode place (.file contents mode)).setMode ⟨.absolute, place⟩ bits =
        .ok (m.setNode place (.file contents bits)) := by
  unfold setMode
  rw [fileAt_setNode tree]
  split
  next refused => exact .inl ⟨refused, rfl⟩
  next => exact .inr (congrArg Except.ok (setNode_setNode _ _ _ _))

theorem remove_setNode (free : m.files[place]? = none) (other : m.kept ≠ some place) :
    (m.setNode place (.file contents mode)).remove ⟨.absolute, place⟩ = .ok m := by
  unfold remove
  rw [fileAt_setNode tree]
  change Except.ok { m with
    files := (m.files.insert place (.file contents mode)).erase place
    kept := if m.kept = some place then none else m.kept } = _
  rw [erase_insert free, if_neg other]

end Held

/-- A machine with a file put at a place. Records that went to a file there go nowhere from then
on. -/
def put (m : Machine) (goal : List String) (contents : Bytes) (mode : Nat) : Machine :=
  { m with
    files := m.files.insert goal (.file contents mode)
    kept := if m.kept = some goal then none else m.kept }

theorem kept_put_ne (m : Machine) (goal : List String) (contents : Bytes) (mode : Nat) :
    (m.put goal contents mode).kept ≠ some goal := by
  change (if m.kept = some goal then none else m.kept) ≠ some goal
  split
  next => exact fun same => by cases same
  next other => exact other

theorem kept_put_of_ne (other : m.kept ≠ some place) (contents : Bytes) (mode : Nat) :
    (m.put goal contents mode).kept ≠ some place := by
  change (if m.kept = some goal then none else m.kept) ≠ some place
  split
  next => exact fun same => by cases same
  next => exact other

section Moving

variable {source : Path} {origin goal : List String}
  (allowed : ¬ m.refuses .replace = true)
  (file : m.fileAt source = .ok (origin, contents, mode)) (leads : m.place path = .ok goal)

include allowed file leads

theorem replace_of_file (other : m.files[goal]? ≠ some .directory) :
    m.replace source path = .ok { m with
      files := (m.files.erase origin).insert goal (.file contents mode)
      kept := m.keptAfterMove origin goal } := by
  unfold replace
  refine (if_neg allowed).trans ?_
  -- What is left of the match is its last case, as there is no directory at the goal.
  simp only [file, leads, bind, Except.bind]
  rfl

theorem replace_of_directory (directory : m.files[goal]? = some .directory) :
    m.replace source path = .error .isDirectory := by
  unfold replace
  refine (if_neg allowed).trans ?_
  simp only [file, leads, bind, Except.bind, directory]
  rfl

end Moving

section Target

variable (leads : m.place path = .ok goal) (free : m.files[place]? = none)

include leads free

/-- A path leads where it led before there was a file at another place. -/
theorem place_setNode : (m.setNode place (.file contents mode)).place path = .ok goal := by
  refine place_mono leads (fun p held => ?_) rfl
  have apart : p ≠ place := by
    rintro rfl
    rw [free] at held
    cases held
  exact (getElem?_insert_of_ne _ apart).trans held

/-- Moving a file from where nothing stood puts it at the target, if no directory is there. -/
theorem replace_setNode (tree : IsTree (m.files.insert place (.file contents mode)))
    (other : m.kept ≠ some place) (apart : goal ≠ place) :
    (m.refuses .replace = true ∧
      (m.setNode place (.file contents mode)).replace ⟨.absolute, place⟩ path =
        .error (.other "refused")) ∨
      (m.files[goal]? = some .directory ∧
        (m.setNode place (.file contents mode)).replace ⟨.absolute, place⟩ path =
          .error .isDirectory) ∨
      (m.files[goal]? ≠ some .directory ∧
        (m.setNode place (.file contents mode)).replace ⟨.absolute, place⟩ path =
          .ok (m.put goal contents mode)) := by
  by_cases refused : m.refuses .replace = true
  · exact .inl ⟨refused, by unfold replace; exact if_pos refused⟩
  let m' := m.setNode place (.file contents mode)
  have allowed : ¬ m'.refuses .replace = true := refused
  have file : m'.fileAt ⟨.absolute, place⟩ = .ok (place, contents, mode) := fileAt_setNode tree
  have leads' : m'.place path = .ok goal := place_setNode leads free
  have target : m'.files[goal]? = m.files[goal]? := getElem?_insert_of_ne _ apart
  by_cases directory : m.files[goal]? = some .directory
  · exact .inr (.inl ⟨directory,
      replace_of_directory allowed file leads' (target.trans directory)⟩)
  · have moved := replace_of_file allowed file leads' (target ▸ directory)
    have files : m'.files.erase place = m.files := erase_insert free
    have kept : m'.keptAfterMove place goal =
        if m.kept = some goal then none else m.kept := if_neg other
    rw [files, kept] at moved
    exact .inr (.inr ⟨directory, moved⟩)

end Target

end Machine

end GlobalMap
