import GlobalMap.MapFile.Writing
import GlobalMap.Proofs.Host.Programs
import GlobalMap.Proofs.Host.Records
import GlobalMap.Proofs.Host.Temporary

/-! Replacing a file at once or not at all. The contents go to a temporary file, which a refusal
takes away again, so that either the target has been replaced or nothing has changed. -/
namespace GlobalMap.MapFile

open FileTree OnMachine

variable {m : Machine} {path : Path} {place goal : List String} {mode : Nat}

/-- The permission bits of a file that is put at a place. -/
def modeFor (m : Machine) (goal : List String) : Nat :=
  match m.files[goal]? with
  | some (.file _ mode) => mode
  | some .directory => 0o755
  | none => Permission.ofNewFile m.umask

/-- What keeps a machine from replacing the file at a path. -/
inductive Hinders (m : Machine) (path : Path) : Refusal → Prop
  | told {request : Request} (refused : m.refuses request = true) :
    Hinders m path (.other "refused")
  | unmade {refusal : Refusal}
    (refused : m.createTemporary path.parent ("." ++ path.name?.getD "" ++ ".") ".tmp" =
      .error refusal) : Hinders m path refusal
  | directory {goal : List String} (leads : m.place path = .ok goal)
    (stands : m.files[goal]? = some .directory) : Hinders m path .isDirectory

/-- Looking at the target changes nothing. -/
theorem targetMode_eq (leads : m.place path = .ok goal) :
    (m.refuses .status = true ∧
      (targetMode path : OnMachine _) m = (.error (.other "refused"), m)) ∨
      (targetMode path : OnMachine _) m = (.ok (modeFor m goal), m) := by
  have asked : (Host.status path : OnMachine _) m = (OnMachine.status m path, m) := rfl
  unfold OnMachine.status at asked
  by_cases refused : m.refuses .status = true
  · rw [if_pos refused] at asked
    exact .inl ⟨refused, run_bind asked⟩
  · rw [if_neg refused] at asked
    simp only [Machine.node, leads, bind, Except.bind] at asked
    refine .inr ((run_bind asked).trans ?_)
    unfold modeFor
    cases m.files[goal]? with
    | none => rfl
    | some node => cases node <;> rfl

theorem modeFor_setNode (apart : goal ≠ place) (node : Node) :
    modeFor (m.setNode place node) goal = modeFor m goal := by
  unfold modeFor Machine.setNode
  rw [getElem?_insert_of_ne node apart]

section Filling

variable (leads : m.place path = .ok goal) (apart : goal ≠ place)
  (tree : ∀ contents mode, IsTree (m.files.insert place (.file contents mode)))
  (free : m.files[place]? = none) (other : m.kept ≠ some place)

include leads apart tree free other

/-- A temporary file is filled and moved over the target, or it is still there. -/
theorem fill_setNode (contents : Bytes) :
    (∃ refusal held bits, Hinders m path refusal ∧
      (fill ⟨.absolute, place⟩ path contents : ExceptT _ OnMachine _).run
        (m.setNode place (.file [] mode)) = (.error refusal, m.setNode place (.file held bits))) ∨
      m.files[goal]? ≠ some .directory ∧
        (fill ⟨.absolute, place⟩ path contents : ExceptT _ OnMachine _).run
          (m.setNode place (.file [] mode)) = (.ok (), m.put goal contents (modeFor m goal)) := by
  rcases Machine.writeTemporary_setNode (tree [] mode) contents with ⟨told, refused⟩ | written
  · refine .inl ⟨_, contents.take m.refusesAfter, mode, .told told, ?_⟩
    have broken := writeTemporary_error refused
    rw [Machine.breakOff_setNode (tree [] mode)] at broken
    exact run_try_error broken
  have filled := writeTemporary_ok written
  have there : (m.setNode place (.file contents mode)).place path = .ok goal :=
    Machine.place_setNode leads free
  rcases targetMode_eq there with ⟨told, refused⟩ | asked
  · exact .inl ⟨_, contents, mode, .told told, (run_try filled).trans (run_try_error refused)⟩
  rw [modeFor_setNode apart] at asked
  rcases Machine.setMode_setNode (tree contents mode) (modeFor m goal) with ⟨told, refused⟩ | set
  · exact .inl ⟨_, contents, mode, .told told, (run_try filled).trans
      ((run_try asked).trans (run_try_error (request_error _ refused)))⟩
  rcases Machine.replace_setNode leads free (tree contents (modeFor m goal)) other apart with
    ⟨told, refused⟩ | ⟨stands, refused⟩ | ⟨file, moved⟩
  · have last := request_error (Machine.replace · ⟨.absolute, place⟩ path) refused
    exact .inl ⟨_, contents, modeFor m goal, .told told, (run_try filled).trans
      ((run_try asked).trans ((run_try (request_ok _ set)).trans last))⟩
  · have last := request_error (Machine.replace · ⟨.absolute, place⟩ path) refused
    exact .inl ⟨_, contents, modeFor m goal, .directory leads stands, (run_try filled).trans
      ((run_try asked).trans ((run_try (request_ok _ set)).trans last))⟩
  · have last := request_ok (Machine.replace · ⟨.absolute, place⟩ path) moved
    exact .inr ⟨file, (run_try filled).trans
      ((run_try asked).trans ((run_try (request_ok _ set)).trans last))⟩

end Filling

/-- Contents are put at a path, with the permission bits of what they replace, or something is in
the way and nothing changes. -/
theorem replaceContents_outcome (sound : m.Sound) (path : Path) (contents : Bytes) :
    (∃ refusal, Hinders m path refusal ∧
      (replaceContents path contents : OnMachine _) m = (.error refusal, m)) ∨
      ∃ goal : List String, m.place path = .ok goal ∧ m.files[goal]? ≠ some .directory ∧
        (replaceContents path contents : OnMachine _) m =
          (.ok (), m.put goal contents (modeFor m goal)) := by
  cases created : m.createTemporary path.parent ("." ++ path.name?.getD "" ++ ".") ".tmp" with
  | error refusal =>
    exact .inl ⟨refusal, .unmade created, run_bind (createTemporary_error created)⟩
  | ok made =>
    have asked := createTemporary_ok created
    obtain ⟨inside, name, makes, temporary, holds⟩ := Machine.createTemporary_makes created
    obtain ⟨goal, leads, apart⟩ := makes.place_target
    have tree' := makes.isTree sound.tree
    have free := makes.free
    have other : m.kept ≠ some (inside ++ [name]) := fun log => by
      have held := Std.ExtTreeMap.mem_iff_isSome_getElem?.mp (sound.stands _ log)
      rw [free] at held
      cases held
    obtain ⟨_, _⟩ := made
    cases temporary
    cases holds
    rcases fill_setNode leads apart tree' free other contents with
      ⟨refusal, held, bits, hinders, refused⟩ | ⟨file, filled⟩
    · have removed := request_ok (Machine.remove · ⟨.absolute, inside ++ [name]⟩)
        (Machine.remove_setNode (tree' held bits) free other)
      exact .inl ⟨refusal, hinders,
        (run_bind asked).trans ((run_bind refused).trans (run_bind removed))⟩
    · exact .inr ⟨goal, leads, file, (run_bind asked).trans (run_bind filled)⟩

/-! The same inside a program that keeps a state of its own and may never end. -/

section Lifting

variable {σ : Type}

theorem targetMode_lift (path : Path) :
    (targetMode path : StateT σ (OptionT OnMachine) _) = lift (targetMode path) := by
  refine bind_lift fun found => ?_
  cases found with
  | ok status => cases status <;> rfl
  | error refusal => cases refusal <;> rfl

theorem fill_lift (temporary path : Path) (contents : Bytes) :
    (fill temporary path contents : ExceptT _ (StateT σ (OptionT OnMachine)) _).run =
      lift (fill temporary path contents : ExceptT _ OnMachine _).run := by
  refine try_lift fun _ => ?_
  rw [targetMode_lift]
  exact try_lift fun mode => try_lift fun _ => rfl

theorem replaceContents_lift (path : Path) (contents : Bytes) :
    (replaceContents path contents : StateT σ (OptionT OnMachine) _) =
      lift (replaceContents path contents) := by
  refine bind_lift fun made => ?_
  cases made with
  | error refusal => rfl
  | ok temporary =>
    dsimp only
    rw [fill_lift]
    refine bind_lift fun filled => ?_
    cases filled <;> rfl

end Lifting

end GlobalMap.MapFile
