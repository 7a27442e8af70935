import GlobalMap.Command
import GlobalMap.Proofs.Host.Programs

/-! Finding the settings of a run changes nothing, and a run that starts has a file to read. -/
namespace GlobalMap

open OnMachine

/-! ## Looking for settings -/

theorem Host.asks_find (path : Path) : Asks (Host.find path) := by
  refine asks_bind (asks_ask _) fun found => ?_
  cases found with
  | ok status => exact asks_pure _
  | error refusal => cases refusal <;> exact asks_pure _

theorem Host.status_of_find {m : Machine} {path : Path} {status : Status}
    (found : ((Host.find path : OnMachine _) m).1 = .ok (some status)) :
    OnMachine.status m path = .ok status := by
  have asked : (Host.status path : OnMachine _) m = (OnMachine.status m path, m) := rfl
  cases looked : OnMachine.status m path with
  | ok other =>
    rw [looked] at asked
    have answer : (Host.find path : OnMachine _) m = (.ok (some other), m) := run_bind asked
    rw [answer] at found
    cases found
    rfl
  | error refusal =>
    rw [looked] at asked
    have answer : (Host.find path : OnMachine _) m = _ := run_bind asked
    rw [answer] at found
    cases refusal <;> cases found

theorem Machine.file_of_status {m : Machine} {path : Path} {mode : Nat}
    (found : OnMachine.status m path = .ok (.file mode)) :
    ∃ (place : List String) (contents : Bytes) (mode : Nat), m.place path = .ok place ∧
      m.files[place]? = some (.file contents mode) := by
  unfold OnMachine.status at found
  by_cases refused : m.refuses .status = true
  · rw [if_pos refused] at found
    cases found
  rw [if_neg refused] at found
  unfold Machine.node at found
  cases leads : m.place path with
  | error refusal =>
    rw [leads] at found
    cases found
  | ok place =>
    refine ⟨place, ?_⟩
    rcases held : m.files[place]? with _ | (_ | ⟨contents, mode⟩)
    · simp only [leads, bind, Except.bind, held] at found
      cases found
    · simp only [leads, bind, Except.bind, held] at found
      cases found
    · exact ⟨contents, mode, rfl, rfl⟩

namespace Settings

theorem asks_filesAreOff : Asks filesAreOff :=
  asks_bind (asks_ask _) fun _ => asks_pure _

theorem asks_readAssignments (path : Path) : Asks (readAssignments path) := by
  refine asks_bind (Host.asks_find path) fun found => ?_
  rcases found with refusal | (_ | (_ | mode))
  · exact asks_pure _
  · exact asks_pure _
  · exact asks_pure _
  · refine asks_bind asks_filesAreOff fun off => ?_
    cases off with
    | true => exact asks_pure _
    | false =>
      refine asks_bind (asks_ask _) fun read => ?_
      cases read with
      | error refusal => exact asks_pure _
      | ok bytes =>
        dsimp only
        cases Text.Utf8.decode bytes with
        | error damage => exact asks_pure _
        | ok text => exact asks_pure _

theorem asks_processVariables (names : List String) : Asks (processVariables names) := by
  refine asks_bind ?_ fun rows => asks_pure _
  induction names with
  | nil => exact asks_pure _
  | cons name rest ih =>
    rw [List.mapM_cons]
    exact asks_bind (asks_bind (asks_ask _) fun _ => asks_pure _) fun _ =>
      asks_bind ih fun _ => asks_pure _

theorem asks_load (path : Path) : Asks (load path) := by
  refine asks_bind (asks_readAssignments path) fun read => ?_
  cases read with
  | error fault => exact asks_pure _
  | ok given =>
    refine asks_bind (asks_processVariables _) fun process => ?_
    dsimp only
    split <;> exact asks_pure _

theorem asks_complete (given : Settings) : Asks (complete given) := by
  refine asks_bind (asks_load _) fun found => ?_
  cases found <;> exact asks_pure _

/-! ## Checking them -/

theorem asks_checkInput (path : Path) : Asks (checkInput path) := by
  refine asks_bind (Host.asks_find path) fun found => ?_
  rcases found with refusal | (_ | (_ | mode)) <;> exact asks_pure _

theorem asks_checkOutput (output : Option Path) : Asks (checkOutput output) := by
  cases output with
  | none => exact asks_pure _
  | some path =>
    refine asks_bind (asks_bind (Host.asks_find path) fun found => ?_) fun outcome => ?_
    · cases found <;> exact asks_pure _
    · rcases outcome with fault | (_ | _) <;> exact asks_pure _

theorem asks_check (s : Settings) : Asks s.check := by
  unfold check
  cases s.input with
  | none => exact asks_pure _
  | some input =>
    refine asks_bind (asks_checkInput input) fun outcome => ?_
    cases outcome with
    | error fault => exact asks_pure _
    | ok _ => exact asks_checkOutput s.output

/-- An input that passes its check is a file. -/
theorem file_of_checkInput {m : Machine} {path : Path}
    (passes : ((checkInput path : OnMachine _) m).1 = .ok ()) :
    ∃ (place : List String) (contents : Bytes) (mode : Nat), m.place path = .ok place ∧
      m.files[place]? = some (.file contents mode) := by
  cases found : ((Host.find path : OnMachine _) m).1 with
  | error refusal =>
    have looked : (checkInput path : OnMachine _) m = (.error (.refused refusal), m) :=
      run_bind ((Host.asks_find path).run_eq found)
    rw [looked] at passes
    cases passes
  | ok answer =>
    have looked : (checkInput path : OnMachine _) m = _ :=
      run_bind ((Host.asks_find path).run_eq found)
    rw [looked] at passes
    rcases answer with _ | (_ | mode)
    · cases passes
    · cases passes
    · exact Machine.file_of_status (Host.status_of_find found)

theorem input_of_check {m : Machine} {s : Settings}
    (passes : ((s.check : OnMachine _) m).1 = .ok ()) :
    ∃ input, s.input = some input ∧ ((checkInput input : OnMachine _) m).1 = .ok () := by
  unfold check at passes
  cases input : s.input with
  | none =>
    rw [input] at passes
    cases passes
  | some path =>
    rw [input] at passes
    dsimp only at passes
    refine ⟨path, rfl, ?_⟩
    cases checked : ((checkInput path : OnMachine _) m).1 with
    | ok _ => rfl
    | error fault =>
      rw [run_bind ((asks_checkInput path).run_eq checked)] at passes
      cases passes

end Settings

namespace Command

theorem asks_configure (given : Settings) : Asks (configure given) := by
  refine asks_bind (Settings.asks_complete given) fun found => ?_
  cases found with
  | error fault => exact asks_pure _
  | ok settings =>
    refine asks_bind (Settings.asks_check settings) fun outcome => ?_
    cases outcome <;> exact asks_pure _

/-- The settings, unless a check has found fault with them. -/
def answerOf (settings : Settings) (outcome : Except Settings.Fault Unit) :
    OnMachine (Except Settings.Fault Settings) :=
  match outcome with
  | .error fault => pure (.error fault)
  | .ok () => pure (.ok settings)

/-- A run that starts has an input, and the input is a file. -/
theorem input_of_configure {m : Machine} {given settings : Settings}
    (configured : ((configure given : OnMachine _) m).1 = .ok settings) :
    ∃ (input : Path) (place : List String) (contents : Bytes) (mode : Nat),
      settings.input = some input ∧ m.place input = .ok place ∧
      m.files[place]? = some (.file contents mode) := by
  cases completed : ((Settings.complete given : OnMachine _) m).1 with
  | error fault =>
    have failed : (configure given : OnMachine _) m = (.error fault, m) :=
      run_bind ((Settings.asks_complete given).run_eq completed)
    rw [failed] at configured
    cases configured
  | ok found =>
    have checks : (configure given : OnMachine _) m = (found.check >>= answerOf found) m :=
      run_bind ((Settings.asks_complete given).run_eq completed)
    rw [checks] at configured
    cases checked : ((found.check : OnMachine _) m).1 with
    | error fault =>
      rw [run_bind ((Settings.asks_check found).run_eq checked)] at configured
      cases configured
    | ok _ =>
      rw [run_bind ((Settings.asks_check found).run_eq checked)] at configured
      cases configured
      obtain ⟨input, named, passes⟩ := Settings.input_of_check checked
      obtain ⟨place, contents, mode, leads, held⟩ := Settings.file_of_checkInput passes
      exact ⟨input, place, contents, mode, named, leads, held⟩

end Command

end GlobalMap
