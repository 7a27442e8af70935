import GlobalMap.Proofs.Settings.Variables
import Mathlib.Data.List.Forall2
import Mathlib.Tactic.SplitIfs

/-! Which layer decides a setting. An argument comes before a variable, a variable of the process
before one that a file assigns, and an empty variable of the process hides the file although it
names nothing itself. The map file of a run that names none is that of its input, and no other
input has the same. -/
namespace GlobalMap.Settings

open OnMachine EnvironmentFile

/-! ## Switches -/

theorem toNat_toLower (c : Char) :
    c.toLower.toNat = if 65 ≤ c.toNat ∧ c.toNat ≤ 90 then c.toNat + 32 else c.toNat := by
  unfold Char.toLower
  split
  next capital =>
    have low : 65 ≤ c.toNat := capital.1
    have high : c.toNat ≤ 90 := capital.2
    rw [if_pos ⟨low, high⟩]
    change (c.toNat + 32) % 2 ^ 32 = _
    omega
  next other => exact (if_neg other).symm

theorem toNat_toUpper (c : Char) :
    c.toUpper.toNat = if 97 ≤ c.toNat ∧ c.toNat ≤ 122 then c.toNat - 32 else c.toNat := by
  unfold Char.toUpper
  split
  next small =>
    have low : 97 ≤ c.toNat := small.1
    have high : c.toNat ≤ 122 := small.2
    rw [if_pos ⟨low, high⟩]
    have down : ('A'.val - 'a'.val).toNat = 2 ^ 32 - 32 := by decide
    change (c.val + ('A'.val - 'a'.val)).toNat = _
    rw [UInt32.toNat_add, down]
    change (c.toNat + (2 ^ 32 - 32)) % 2 ^ 32 = _
    omega
  next other => exact (if_neg other).symm

/-- Two characters that differ in case at most; the second is no capital. -/
def SameLetter (c d : Char) : Prop :=
  c = d ∨ c = d.toUpper

theorem toLower_eq_iff {c d : Char} (small : d.toLower = d) : c.toLower = d ↔ SameLetter c d := by
  have smallNat := congrArg Char.toNat small
  rw [toNat_toLower] at smallNat
  unfold SameLetter
  rw [← Char.toNat_inj, ← Char.toNat_inj, ← Char.toNat_inj, toNat_toLower, toNat_toUpper]
  split_ifs at smallNat ⊢ <;> omega

/-- A value that is one of the true words, each letter of it in either case. -/
def SpellsTrue (value : String) : Prop :=
  ∃ word ∈ trueWords, List.Forall₂ SameLetter value.toList word.toList

theorem map_toLower_eq_iff {value word : List Char} (small : ∀ d ∈ word, d.toLower = d) :
    value.map Char.toLower = word ↔ List.Forall₂ SameLetter value word := by
  induction word generalizing value with
  | nil => rw [List.map_eq_nil_iff, List.forall₂_nil_right_iff]
  | cons d rest ih =>
    obtain ⟨here, behind⟩ := List.forall_mem_cons.mp small
    cases value with
    | nil => simp only [List.map_nil, reduceCtorEq, List.forall₂_nil_left_iff]
    | cons c others =>
      rw [List.map_cons, List.cons.injEq, toLower_eq_iff here, ih behind, List.forall₂_cons]

theorem isTrue_iff (value : String) : isTrue value = true ↔ SpellsTrue value := by
  have lower : (trueWords.all fun word => word.toList.all fun d => d.toLower == d) = true := by
    decide
  have small (word : String) (listed : word ∈ trueWords) : ∀ d ∈ word.toList, d.toLower = d :=
    fun d inside => beq_iff_eq.mp
      (List.all_eq_true.mp (List.all_eq_true.mp lower word listed) d inside)
  have spelled (word : String) (listed : word ∈ trueWords) :
      String.ofList (value.toList.map Char.toLower) = word ↔
        List.Forall₂ SameLetter value.toList word.toList := by
    rw [← map_toLower_eq_iff (small word listed), ← String.toList_inj, String.toList_ofList]
  unfold isTrue SpellsTrue
  rw [List.contains_iff_mem]
  constructor
  · intro listed
    exact ⟨_, listed, (spelled _ listed).mp rfl⟩
  · rintro ⟨word, listed, spells⟩
    exact (spelled word listed).mpr spells ▸ listed

/-! ## Variables -/

/-- What a variable says in the end: what the process says, be it empty, or what a file assigns. -/
inductive Effective (process assigned : String → Option String) (name : String) :
    Option String → Prop where
  | ofProcess {value : String} (set : process name = some value) :
    Effective process assigned name (some value)
  | ofFile {value : String} (unset : process name = none) (set : assigned name = some value) :
    Effective process assigned name (some value)
  | unset (process_none : process name = none) (assigned_none : assigned name = none) :
    Effective process assigned name none

theorem effective_iff {process assigned : String → Option String} {name : String}
    {value : Option String} :
    Effective process assigned name value ↔ (process name).or (assigned name) = value := by
  constructor
  · rintro (set | ⟨unset, set⟩ | ⟨unset, unset'⟩)
    · rw [set, Option.some_or]
    · rw [unset, Option.none_or, set]
    · rw [unset, Option.none_or, unset']
  · rintro rfl
    cases set : process name with
    | some value => exact .ofProcess set
    | none =>
      rw [Option.none_or]
      cases set' : assigned name with
      | some value => exact .ofFile set set'
      | none => exact .unset set set'

/-- A file assigns these values to the variables of a machine, and every variable can be set to
what it assigns. Where there is no file, nothing is assigned. -/
def Assigns (m : Machine) (values : String → Option String) : Prop :=
  ∃ listed : List Assignment, ((readAssignments environmentFile : OnMachine _) m).1 = .ok listed ∧
    unsettable? m.environmentValue (resolve m.environmentValue listed) = none ∧
    valueOf (resolve m.environmentValue listed) = values

/-- What comes of assignments that a file lists. -/
def loaded (process : String → Option String) (listed : List Assignment) : Except Fault Settings :=
  match unsettable? process (resolve process listed) with
  | some reason => .error (.unsettable reason)
  | none => .ok (ofVariables (effective process (resolve process listed)))

/-- It is enough to ask about the names of the settings and those that the file mentions. -/
theorem loaded_congr {f g : String → Option String} {listed : List Assignment}
    (same : ∀ name ∈ variableNames ++ names listed, f name = g name) :
    loaded f listed = loaded g listed := by
  obtain ⟨settings, mentioned⟩ := List.forall_mem_append.mp same
  have resolved : resolve f listed = resolve g listed := resolve_congr mentioned
  have settable : unsettable? f (resolve g listed) = unsettable? g (resolve g listed) :=
    unsettable?_congr fun a member => mentioned a.name (name_mem_names member)
  have found : ofVariables (effective f (resolve g listed)) =
      ofVariables (effective g (resolve g listed)) := by
    refine ofVariables_congr fun name listed => ?_
    rw [effective, effective, settings name listed]
  unfold loaded
  rw [resolved, settable, found]

theorem load_of_listed {m : Machine} {path : Path} {listed : List Assignment}
    (read : ((readAssignments path : OnMachine _) m).1 = .ok listed) :
    (load path : OnMachine _) m = (loaded m.environmentValue listed, m) := by
  let asked := variableNames ++ names listed
  let process := ((processVariables asked : OnMachine _) m).1
  have begun : (load path : OnMachine _) m = _ :=
    run_bind ((asks_readAssignments path).run_eq read)
  have answered : (load path : OnMachine _) m = _ :=
    begun.trans (run_bind ((asks_processVariables asked).run_eq (a := process) rfl))
  have same : loaded process listed = loaded m.environmentValue listed :=
    loaded_congr fun name member => processVariables_eq rfl member
  rw [answered, ← same]
  unfold loaded
  cases unsettable? process (resolve process listed) <;> rfl

/-- The settings that the variables give, or the fault that keeps them from being read. -/
theorem complete_of_load {m : Machine} {found : Except Fault Settings} (given : Settings)
    (loads : (load environmentFile : OnMachine _) m = (found, m)) :
    (complete given : OnMachine _) m =
      (found.bind fun settings => (given.or settings).completed.mapError .nameless, m) := by
  have begun : (complete given : OnMachine _) m = _ := run_bind loads
  rw [begun]
  cases found <;> rfl

/-! ## Paths -/

/-- Where a path comes from: an argument, or else a variable that is not empty. -/
inductive ComesFrom : (given : Option Path) → (value : Option String) → Option Path → Prop where
  | argument (path : Path) (value : Option String) : ComesFrom (some path) value (some path)
  | named {text : String} (nonempty : text ≠ "") :
    ComesFrom none (some text) (some (Path.ofString text))
  | empty : ComesFrom none (some "") none
  | unset : ComesFrom none none none

theorem comesFrom_or (given : Option Path) (value : Option String) :
    ComesFrom given value (given.or (pathOf value)) := by
  rcases given with _ | path
  · rcases value with _ | text
    · exact .unset
    · by_cases empty : text = ""
      · subst empty
        exact .empty
      · have kept : pathOf (some text) = some (Path.ofString text) := by
          rw [pathOf, Option.filter_some, if_pos (bne_iff_ne.mpr empty), Option.map_some]
        rw [Option.none_or, kept]
        exact .named empty
  · exact .argument path value

/-- An output beside an input, under its last name with the suffix. -/
def Beside (input output : Path) : Prop :=
  ∃ (before : List String) (name : String), input.parts = before ++ [name] ∧
    output = { input with parts := before ++ [name ++ outputSuffix] }

theorem beside_iff {input output : Path} :
    Beside input output ↔ defaultOutput input = .ok output := by
  unfold defaultOutput Path.addSuffix? Path.name? Path.parent Path.child
  constructor
  · rintro ⟨before, name, parts, rfl⟩
    rw [parts, List.getLast?_concat, List.dropLast_concat]
    rfl
  · intro derived
    cases last : input.parts.getLast? with
    | none =>
      rw [last] at derived
      cases derived
    | some name =>
      obtain ⟨before, parts⟩ := List.getLast?_eq_some_iff.mp last
      rw [last, parts, List.dropLast_concat] at derived
      cases derived
      exact ⟨before, name, parts, rfl⟩

theorem Beside.ne {input output : Path} (beside : Beside input output) : output ≠ input := by
  obtain ⟨before, name, parts, rfl⟩ := beside
  intro same
  have sameParts : before ++ [name ++ outputSuffix] = before ++ [name] :=
    (congrArg Path.parts same).trans parts
  have sameName : name ++ outputSuffix = name :=
    List.singleton_inj.mp (List.append_cancel_left sameParts)
  have sameLength := congrArg String.length sameName
  rw [String.length_append] at sameLength
  have longer : 0 < outputSuffix.length := by decide
  omega

theorem Beside.unique {input other output : Path} (beside : Beside input output)
    (beside' : Beside other output) : other = input := by
  obtain ⟨before, name, parts, rfl⟩ := beside
  obtain ⟨before', name', parts', same⟩ := beside'
  have sameParts : before ++ [name ++ outputSuffix] = before' ++ [name' ++ outputSuffix] :=
    congrArg Path.parts same
  obtain ⟨sameBefore, sameLast⟩ := List.append_inj' sameParts rfl
  have sameName : name = name' := by
    have letters := congrArg String.toList (List.singleton_inj.mp sameLast)
    rw [String.toList_append, String.toList_append] at letters
    exact String.toList_inj.mp (List.append_cancel_right letters)
  have sameRoot : input.root = other.root := (Path.mk.inj same).1
  cases input
  cases other
  simp only at parts parts' sameRoot
  rw [parts, parts', sameRoot, sameBefore, sameName]

/-! ## Settings -/

/-- How the settings of a run are chosen, given what variables say. -/
structure Chosen (tells : String → Option String → Prop) (given chosen : Settings) : Prop where
  input : ∃ value, tells inputVariable value ∧ ComesFrom given.input value chosen.input
  output : ∃ value, tells outputVariable value ∧ ComesFrom given.output value chosen.output
  logDirectory : ∃ value, tells logDirectoryVariable value ∧
    ComesFrom given.logDirectory value chosen.logDirectory
  pretty : chosen.pretty = true ↔
    given.pretty = true ∨ ∃ value, tells prettyVariable (some value) ∧ SpellsTrue value
  verbose : chosen.verbose = true ↔
    given.verbose = true ∨ ∃ value, tells verboseVariable (some value) ∧ SpellsTrue value
  strict : chosen.strict = true ↔
    given.strict = true ∨ ∃ value, tells strictVariable (some value) ∧ SpellsTrue value

/-- What comes of chosen settings: where they name an input and no output, the output stands beside
the input. -/
inductive Completes : (chosen : Settings) → Except Nameless Settings → Prop where
  | named {chosen : Settings} (output : chosen.output ≠ none) : Completes chosen (.ok chosen)
  | noInput {chosen : Settings} (output : chosen.output = none) (input : chosen.input = none) :
    Completes chosen (.ok chosen)
  | beside {chosen : Settings} {input output : Path} (open_output : chosen.output = none)
    (known : chosen.input = some input) (beside : Beside input output) :
    Completes chosen (.ok { chosen with output := some output })
  | nameless {chosen : Settings} {input : Path} (open_output : chosen.output = none)
    (known : chosen.input = some input) (noName : input.parts = []) :
    Completes chosen (.error ⟨input⟩)

theorem completes_completed (chosen : Settings) : Completes chosen chosen.completed := by
  cases output : chosen.output with
  | some path =>
    rw [completed, output]
    exact .named (by rw [output]; exact Option.some_ne_none path)
  | none =>
    cases input : chosen.input with
    | none =>
      rw [completed, output, input]
      exact .noInput output input
    | some path =>
      have derives : chosen.completed =
          (defaultOutput path).map fun output => { chosen with output := some output } := by
        unfold completed
        rw [output, input]
      rw [derives]
      cases derived : defaultOutput path with
      | ok beside => exact .beside output input (beside_iff.mpr derived)
      | error reason =>
        unfold defaultOutput Path.addSuffix? Path.name? at derived
        cases last : path.parts.getLast? with
        | some name =>
          rw [last] at derived
          cases derived
        | none =>
          rw [last] at derived
          cases derived
          exact .nameless output input (List.getLast?_eq_none_iff.mp last)

theorem any_isTrue_iff {process assigned : String → Option String} {name : String} :
    ((process name).or (assigned name)).any isTrue = true ↔
      ∃ value, Effective process assigned name (some value) ∧ SpellsTrue value := by
  simp only [effective_iff, Option.any_eq_true, isTrue_iff]

/-- Given settings with those of the variables behind them are chosen as they should be. -/
theorem chosen_or (process assigned : String → Option String) (given : Settings) :
    Chosen (Effective process assigned) given
      (given.or (ofVariables fun name => (process name).or (assigned name))) where
  input := ⟨_, effective_iff.mpr rfl, comesFrom_or _ _⟩
  output := ⟨_, effective_iff.mpr rfl, comesFrom_or _ _⟩
  logDirectory := ⟨_, effective_iff.mpr rfl, comesFrom_or _ _⟩
  pretty := by rw [← any_isTrue_iff, ← Bool.or_eq_true]; rfl
  verbose := by rw [← any_isTrue_iff, ← Bool.or_eq_true]; rfl
  strict := by rw [← any_isTrue_iff, ← Bool.or_eq_true]; rfl

/-- The settings of a run come from its arguments, its process and its file of variables, in this
order. An output that none of them names stands beside the input; it is not the input, and no other
input has the same. Finding all this out changes nothing. -/
theorem complete_precedence {m : Machine} {values : String → Option String}
    (file : Assigns m values) (given : Settings) :
    (∃ (chosen : Settings) (outcome : Except Nameless Settings),
      Chosen (Effective m.environmentValue values) given chosen ∧ Completes chosen outcome ∧
      (complete given : OnMachine _) m = (outcome.mapError .nameless, m)) ∧
    ∀ input output, Beside input output →
      output ≠ input ∧ ∀ other, Beside other output → other = input := by
  obtain ⟨listed, read, settable, rfl⟩ := file
  have loads := load_of_listed read
  rw [loaded, settable] at loads
  refine ⟨⟨_, _, chosen_or m.environmentValue _ given, completes_completed _, ?_⟩, ?_⟩
  · exact complete_of_load given loads
  · intro input output beside
    exact ⟨beside.ne, fun other beside' => beside.unique beside'⟩

/-- A machine whose file assigns an input, which an empty variable of the process hides, and turns
a switch on. -/
def layered : Machine where
  files := ((∅ : FileTree).insert [] .directory).insert [".env"]
    (.file "MAPPER_INPUT_PATH=a.out\nMAPPER_STRICT='Yes'\n".toUTF8.toList 0o644)
  environment := [(inputVariable, "")]

/-- What the file of this machine lists. -/
def layeredList : List Assignment :=
  [⟨inputVariable, some "a.out"⟩, ⟨strictVariable, some "Yes"⟩]

theorem assigns_layered : Assigns layered (valueOf layeredList) := by
  have read : ((readAssignments environmentFile : OnMachine _) layered).1.toOption =
      some layeredList := by
    decide +kernel
  have resolved : resolve layered.environmentValue layeredList = layeredList := by decide +kernel
  have settable : unsettable? layered.environmentValue
      (resolve layered.environmentValue layeredList) = none := by
    decide +kernel
  refine ⟨layeredList, ?_, settable, congrArg valueOf resolved⟩
  cases answer : ((readAssignments environmentFile : OnMachine _) layered).1 with
  | error fault => rw [answer] at read; cases read
  | ok listed => rw [answer] at read; exact congrArg Except.ok (Option.some.inj read)

/-- The hidden input is not taken up, and the switch stays on without an argument. -/
theorem complete_precedence_layered :
    Assigns layered (valueOf layeredList) ∧ valueOf layeredList inputVariable = some "a.out" ∧
      ∃ chosen : Settings, Completes chosen (.ok chosen) ∧
        (complete {} : OnMachine _) layered = (.ok chosen, layered) ∧
        chosen.input = none ∧ chosen.strict = true := by
  obtain ⟨⟨chosen, outcome, chose, completes, ran⟩, -⟩ := complete_precedence assigns_layered {}
  have hidden : layered.environmentValue inputVariable = some "" := by decide
  have input : chosen.input = none := by
    obtain ⟨value, effective, comes⟩ := chose.input
    rw [effective_iff, hidden, Option.some_or] at effective
    subst effective
    generalize chosen.input = path at comes
    cases comes with
    | named nonempty => exact absurd rfl nonempty
    | empty => rfl
  have strict : chosen.strict = true :=
    chose.strict.mpr (.inr ⟨"Yes", .ofFile (by decide) (by decide),
      (isTrue_iff "Yes").mp (by decide)⟩)
  cases completes with
  | named output => exact ⟨assigns_layered, by decide, chosen, .named output, ran, input, strict⟩
  | noInput output noInput =>
    exact ⟨assigns_layered, by decide, chosen, .noInput output noInput, ran, input, strict⟩
  | beside _ known => rw [input] at known; cases known
  | nameless _ known => rw [input] at known; cases known

end GlobalMap.Settings
