import GlobalMap.Proofs.Session.Produced

/-! Sessions over a whole history of steps, some of which fail. Whatever was done before, a step
comes to the same: it is out of its turn unless the session is open, and otherwise its answer is a
function of what the object file reads as. No step comes behind one that never ends. -/
namespace GlobalMap

namespace Machine

/-- A machine on which an object file reads as it always does. The records of a run do not go to
the object file. -/
structure Serves (m : Machine) (input : Path) (content : Except Refusal Bytes) : Prop where
  sound : m.Sound
  reads : m.readFile input = content
  apart : ∀ place, m.place input = .ok place → m.kept ≠ some place

theorem Serves.emitAll {m : Machine} {input : Path} {content : Except Refusal Bytes}
    (serves : m.Serves input content) (records : List Record) :
    (m.emitAll records).readFile input = content := by
  rw [← serves.reads]
  unfold readFile fileAt
  rw [place_emitAll_eq]
  cases leads : m.place input with
  | error refusal => rfl
  | ok place =>
    have same : (m.emitAll records).files[place]? = m.files[place]? := by
      rw [getElem?_emitAll, linesAt_of_ne (serves.apart place leads), Node.map_behind_nil]
    simp only [bind, Except.bind, same]

end Machine

namespace Session

/-! ## Steps -/

/-- The steps of a session. -/
inductive Step where
  | enter
  | exit
  | collect
  | generate
  | write (output : Path) (pretty : Bool)
  deriving DecidableEq

/-- What a step may answer with. -/
inductive Answer where
  | nothing
  | types (graph : TypeGraph)
  | entries (entries : List MapEntry)

def Step.run : Step → InSession OnMachine (Except Fault Answer)
  | enter => do return (← openFile).map fun _ => .nothing
  | exit => do
    close
    return .ok .nothing
  | collect => do return (← Session.collect).map .types
  | generate => do return (← Session.generate).map .entries
  | write output pretty => do return (← Session.write output pretty).map .entries

/-- Whether a step works on the debug information that the session holds. -/
def Step.NeedsInfo : Step → Prop
  | enter | exit => False
  | collect | generate | write _ _ => True

/-! ## What an object file comes to -/

section Outcomes

variable (input : Path) (strict : Bool) (content : Except Refusal Bytes)

/-- The debug information of an object file. -/
def infoOf : Except Fault DebugInfo := do
  let bytes ← content.mapError (.unreadable input)
  let image ← (Coff.Image.read bytes).mapError .container
  return DebugInfo.read (.ofImage image)

/-- The survey of an object file; there is none of one whose entries lead around in circles. -/
def surveyOf : Option (Except Fault Survey) :=
  match infoOf input content with
  | .error fault => some (.error fault)
  | .ok info => (ended (Survey.add {} info)).map (Except.mapError (.debugInfo input))

/-- The resolved graph of a survey; a strict session allows nothing to be left out. -/
def graphOf (survey : Survey) : Except Fault TypeGraph :=
  if strict && !survey.omissions.isEmpty then .error (.omissions survey.omissions.length)
  else .ok survey.graph.resolve.graph

/-- The resolved graph of an object file. -/
def typesOf : Option (Except Fault TypeGraph) :=
  (surveyOf input content).map (· >>= graphOf strict)

/-- The entries of an object file. -/
def entriesOf : Option (Except Fault (List MapEntry)) :=
  (typesOf input strict content).map (Except.map TypeGraph.entries)

end Outcomes

/-! ## Histories -/

/-- The steps taken so far with what they came to, the last step first. -/
abbrev Past := List (Step × Except Fault Answer)

/-- A session is open when it has been entered, and not left since then. -/
def IsOpen (past : Past) : Prop :=
  ∃ (later earlier : Past) (answer : Answer),
    past = later ++ (.enter, .ok answer) :: earlier ∧ ∀ done ∈ later, done.1 ≠ .exit

theorem not_isOpen_nil : ¬IsOpen [] := by
  rintro ⟨later, earlier, answer, same, _⟩
  exact List.append_ne_nil_of_right_ne_nil later (List.cons_ne_nil _ _) same.symm

theorem isOpen_cons {past : Past} {step : Step} {reply : Except Fault Answer} :
    IsOpen ((step, reply) :: past) ↔
      (step = .enter ∧ ∃ answer, reply = .ok answer) ∨ (step ≠ .exit ∧ IsOpen past) := by
  constructor
  · rintro ⟨later, earlier, answer, same, stays⟩
    cases later with
    | nil =>
      cases same
      exact .inl ⟨rfl, answer, rfl⟩
    | cons last rest =>
      cases same
      obtain ⟨here, before⟩ := List.forall_mem_cons.mp stays
      exact .inr ⟨here, rest, earlier, answer, rfl, before⟩
  · rintro (⟨rfl, answer, rfl⟩ | ⟨stays, later, earlier, answer, rfl, before⟩)
    · exact ⟨[], past, answer, rfl, List.forall_mem_nil _⟩
    · exact ⟨(step, reply) :: later, earlier, answer, rfl, List.forall_mem_cons.mpr ⟨stays, before⟩⟩

/-- A session after any steps on any machines on which its object file reads in one way. A step that
fails does not end the history; one that never ends does. -/
inductive History (input : Path) (strict : Bool) (content : Except Refusal Bytes) :
    Past → Session → Prop where
  | new (machine : Machine) :
    History input strict content [] ((Session.new input strict : OnMachine Session) machine).1
  | next {past : Past} {s after : Session} {machine machine' : Machine} {step : Step}
    {reply : Except Fault Answer} (before : History input strict content past s)
    (serves : machine.Serves input content)
    (ran : runOn step.run s machine = (some (reply, after), machine')) :
    History input strict content ((step, reply) :: past) after

variable {input : Path} {strict : Bool} {content : Except Refusal Bytes} {s after : Session}
  {machine machine' : Machine} {past : Past} {step : Step} {reply : Except Fault Answer}
  {comes : Option (Except Fault Answer)}

/-- What a step comes to, if it ends, and the machine after it, when the session is open or not.
Only a map that is written changes more on the machine than its records. -/
inductive Meets (input : Path) (strict : Bool) (content : Except Refusal Bytes) (opened : Prop)
    (m : Machine) : Step → Option (Except Fault Answer) → Machine → Prop where
  | entered (records : List Record) :
    Meets input strict content opened m .enter
      (some ((infoOf input content).map fun _ => .nothing)) (m.emitAll records)
  | left (records : List Record) :
    Meets input strict content opened m .exit (some (.ok .nothing)) (m.emitAll records)
  | outOfTurn {step : Step} (needs : step.NeedsInfo) (closed : ¬opened) (records : List Record) :
    Meets input strict content opened m step (some (.error .notOpen)) (m.emitAll records)
  | collected (inTurn : opened) (records : List Record) :
    Meets input strict content opened m .collect
      ((typesOf input strict content).map (Except.map .types)) (m.emitAll records)
  | generated (inTurn : opened) (records : List Record) :
    Meets input strict content opened m .generate
      ((entriesOf input strict content).map (Except.map .entries)) (m.emitAll records)
  /-- The entries lead around in circles. -/
  | endless {output : Path} {pretty : Bool} (inTurn : opened)
    (circles : entriesOf input strict content = none) (records : List Record) :
    Meets input strict content opened m (.write output pretty) none (m.emitAll records)
  /-- There is no map to write. -/
  | noMap {output : Path} {pretty : Bool} {fault : Fault} (inTurn : opened)
    (failed : entriesOf input strict content = some (.error fault)) (records : List Record) :
    Meets input strict content opened m (.write output pretty) (some (.error fault))
      (m.emitAll records)
  /-- The map holds a number with too many digits. -/
  | overlong {output : Path} {pretty : Bool} {entries : List MapEntry} {number : Number.Overlong}
    (inTurn : opened) (generated : entriesOf input strict content = some (.ok entries))
    (unprinted : MapFile.print entries pretty = .error number) (records : List Record) :
    Meets input strict content opened m (.write output pretty)
      (some (.error (.unwritable (.overlong number)))) (m.emitAll records)
  /-- The machine does not let the map file be written. -/
  | refused {output : Path} {pretty : Bool} {entries : List MapEntry} {refusal : Refusal}
    (inTurn : opened) (generated : entriesOf input strict content = some (.ok entries))
    (hinders : MapFile.Hinders m output refusal) (records : List Record) :
    Meets input strict content opened m (.write output pretty)
      (some (.error (.unwritable (.refused output refusal)))) (m.emitAll records)
  /-- The whole map stands at its place. -/
  | written {output : Path} {pretty : Bool} {entries : List MapEntry} {text : String}
    {goal : List String} {mode : Nat} {m' : Machine} (inTurn : opened)
    (generated : entriesOf input strict content = some (.ok entries))
    (printed : MapFile.print entries pretty = .ok text) (leads : m.place output = .ok goal)
    (stands : m'.files[goal]? = some (.file (MapFile.encoded text) mode)) :
    Meets input strict content opened m (.write output pretty) (some (.ok (.entries entries))) m'

namespace Meets

variable {opened : Prop}

theorem of_enter (meets : Meets input strict content opened machine .enter comes machine') :
    comes = some ((infoOf input content).map fun _ => .nothing) := by
  cases meets with
  | entered => rfl
  | outOfTurn needs => exact needs.elim

theorem of_closed (meets : Meets input strict content opened machine step comes machine')
    (needs : step.NeedsInfo) (closed : ¬opened) : comes = some (.error .notOpen) := by
  cases meets with
  | entered | left => exact needs.elim
  | outOfTurn => rfl
  | collected inTurn | generated inTurn | endless inTurn | noMap inTurn | overlong inTurn
  | refused inTurn | written inTurn => exact absurd inTurn closed

theorem of_collect (meets : Meets input strict content opened machine .collect comes machine')
    (inTurn : opened) : comes = (typesOf input strict content).map (Except.map .types) := by
  cases meets with
  | outOfTurn _ closed => exact absurd inTurn closed
  | collected => rfl

theorem of_generate (meets : Meets input strict content opened machine .generate comes machine')
    (inTurn : opened) : comes = (entriesOf input strict content).map (Except.map .entries) := by
  cases meets with
  | outOfTurn _ closed => exact absurd inTurn closed
  | generated => rfl

end Meets

/-! ## What a session keeps -/

/-- A session holds all that its object file is read as. -/
def HoldsAll (content : Except Refusal Bytes) (s : Session) : Prop :=
  ∃ bytes image, content = .ok bytes ∧ Coff.Image.read bytes = .ok image ∧
    s.opened bytes image = s

/-- What is true of a session after a history. -/
structure Keeps (input : Path) (strict : Bool) (content : Except Refusal Bytes) (past : Past)
    (s : Session) : Prop where
  input_eq : s.input = input
  strict_eq : s.strict = strict
  holds : IsOpen past → HoldsAll content s
  none : ¬IsOpen past → s.debugInfo = none

theorem HoldsAll.walked (holds : HoldsAll content s) (units : List DebugUnit) :
    HoldsAll content (s.walked units) := by
  obtain ⟨bytes, image, read, laidOut, same⟩ := holds
  exact ⟨bytes, image, read, laidOut, congrArg (·.walked units) same⟩

theorem HoldsAll.infoOf_eq (holds : HoldsAll content s) (input : Path) :
    ∃ info, s.debugInfo = some info ∧ infoOf input content = .ok info := by
  obtain ⟨bytes, image, rfl, laidOut, same⟩ := holds
  refine ⟨DebugInfo.read (.ofImage image), (congrArg Session.debugInfo same).symm, ?_⟩
  simp only [infoOf, Except.mapError, bind, Except.bind, laidOut, pure, Except.pure]

/-- A step other than entering and leaving goes on with what the session keeps. -/
theorem Keeps.stay (keeps : Keeps input strict content past s) (needs : step.NeedsInfo)
    (reply : Except Fault Answer) : Keeps input strict content ((step, reply) :: past) s := by
  have same : IsOpen ((step, reply) :: past) ↔ IsOpen past := by
    rw [isOpen_cons]
    cases step with
    | enter | exit => exact needs.elim
    | collect | generate | write output pretty => simp
  exact ⟨keeps.input_eq, keeps.strict_eq, fun isOpen => keeps.holds (same.mp isOpen),
    fun closed => keeps.none fun isOpen => closed (same.mpr isOpen)⟩

theorem Keeps.walked (keeps : Keeps input strict content past s) (units : List DebugUnit) :
    Keeps input strict content past (s.walked units) :=
  ⟨keeps.input_eq, keeps.strict_eq, fun isOpen => (keeps.holds isOpen).walked units, keeps.none⟩

/-! ## Each step -/

/-- A step does something to the machine, and to the session and the history if it ends. -/
def Does (input : Path) (strict : Bool) (content : Except Refusal Bytes) (past : Past)
    (s : Session) (machine : Machine) (step : Step) : Prop :=
  ∃ outcome machine', runOn step.run s machine = (outcome, machine') ∧
    Meets input strict content (IsOpen past) machine step (outcome.map Prod.fst) machine' ∧
    ∀ reply after, outcome = some (reply, after) →
      Keeps input strict content ((step, reply) :: past) after

/-- A step on debug information does what it comes to, with a session that keeps what the one before
it did. -/
theorem does_of_ran {t : Session} (needs : step.NeedsInfo)
    (keeps : Keeps input strict content past t)
    (ran : runOn step.run s machine = (comes.map (·, t), machine'))
    (meets : Meets input strict content (IsOpen past) machine step comes machine') :
    Does input strict content past s machine step := by
  cases comes with
  | none => exact ⟨none, machine', ran, meets, fun _ _ same => by cases same⟩
  | some reply =>
    refine ⟨some (reply, t), machine', ran, meets, fun _ _ same => ?_⟩
    cases same
    exact keeps.stay needs reply

/-- An action as a step, by what its result answers. -/
theorem runOn_answer {α : Type} {action : InSession OnMachine (Except Fault α)} {t : Session}
    (result : Option (Except Fault α)) (answer : α → Answer)
    (ran : runOn action s machine = (result.map (·, t), machine')) :
    runOn (do return (← action).map answer : InSession OnMachine _) s machine =
      ((result.map (Except.map answer)).map (·, t), machine') := by
  cases result with
  | none => exact runOn_bind_none ran
  | some result => exact (runOn_bind ran).trans rfl

theorem entered_eq_infoOf (s : Session) (content : Except Refusal Bytes) :
    (s.entered content).1 = (infoOf s.input content).map fun _ => () := by
  unfold entered infoOf
  cases content with
  | error refusal => rfl
  | ok bytes =>
    simp only [Except.mapError, bind, Except.bind]
    cases Coff.Image.read bytes <;> rfl

/-- Where entering fails a session may keep the contents, but it is as open as before. -/
theorem Keeps.enter (keeps : Keeps input strict content past s) :
    Keeps input strict content
      ((.enter, (s.entered content).1.map fun _ => .nothing) :: past) (s.entered content).2 := by
  have failed (fault : Fault) : IsOpen ((.enter, .error fault) :: past) ↔ IsOpen past := by
    simp [isOpen_cons]
  unfold entered
  cases content with
  | error refusal =>
    refine ⟨keeps.input_eq, keeps.strict_eq, fun isOpen => ?_, fun closed => ?_⟩
    · exact keeps.holds ((failed _).mp isOpen)
    · exact keeps.none fun isOpen => closed ((failed _).mpr isOpen)
  | ok bytes =>
    dsimp only
    cases laidOut : Coff.Image.read bytes with
    | error fault =>
      refine ⟨keeps.input_eq, keeps.strict_eq, fun isOpen => ?_, fun closed => ?_⟩
      · obtain ⟨_, image, same, laidOut', _⟩ := keeps.holds ((failed _).mp isOpen)
        cases same
        rw [laidOut] at laidOut'
        cases laidOut'
      · exact keeps.none fun isOpen => closed ((failed _).mpr isOpen)
    | ok image =>
      refine ⟨keeps.input_eq, keeps.strict_eq, fun _ => ?_, fun closed => ?_⟩
      · exact ⟨bytes, image, rfl, laidOut, rfl⟩
      · exact absurd (isOpen_cons.mpr (.inl ⟨rfl, .nothing, rfl⟩)) closed

theorem does_enter (keeps : Keeps input strict content past s)
    (serves : machine.Serves input content) : Does input strict content past s machine .enter := by
  obtain ⟨before, records, opens⟩ := runOn_openFile s machine
  rw [keeps.input_eq, serves.emitAll before] at opens
  have ran : runOn Step.enter.run s machine =
      (some ((s.entered content).1.map fun _ => .nothing, (s.entered content).2),
        machine.emitAll records) := (runOn_bind opens).trans rfl
  have outcome : ((s.entered content).1.map fun _ => Answer.nothing) =
      (infoOf input content).map fun _ => .nothing := by
    rw [entered_eq_infoOf, keeps.input_eq]
    cases infoOf input content <;> rfl
  refine ⟨_, _, ran, ?_, fun reply after same => ?_⟩
  · rw [Option.map_some, outcome]
    exact .entered records
  · cases same
    exact keeps.enter

theorem does_exit (keeps : Keeps input strict content past s) :
    Does input strict content past s machine .exit := by
  obtain ⟨records, closes⟩ := tells_close s machine
  have closed : ¬IsOpen ((.exit, .ok .nothing) :: past) := by simp [isOpen_cons]
  refine ⟨_, _, (runOn_bind closes).trans rfl, .left records, fun reply after same => ?_⟩
  cases same
  exact ⟨keeps.input_eq, keeps.strict_eq, fun isOpen => absurd isOpen closed, fun _ => rfl⟩

theorem tells_collect_closed (closed : s.debugInfo = none) :
    Tells collect s (.error .notOpen) s := by
  have walks : Tells walk s (.error .notOpen) s := by
    refine comes_bind (tells_get s) ?_
    rw [closed]
    exact tells_pure _ s
  exact comes_stage (comes_try_error walks)

/-- What an open session collects is determined by the contents. -/
theorem comes_collect_open (keeps : Keeps input strict content past s) (isOpen : IsOpen past) :
    ∃ units, Comes collect s ((typesOf input strict content).map (·, s.walked units)) := by
  obtain ⟨info, held, reads⟩ := (keeps.holds isOpen).infoOf_eq input
  have collects := comes_collect held
  refine ⟨info.units, ?_⟩
  rw [typesOf, surveyOf, reads]
  dsimp only
  rw [Option.map_map, Option.map_map, ← keeps.input_eq, ← keeps.strict_eq]
  exact collects

theorem tells_generate_closed (closed : s.debugInfo = none) :
    Tells generate s (.error .notOpen) s :=
  comes_try_error (tells_collect_closed closed)

theorem comes_generate_open (keeps : Keeps input strict content past s) (isOpen : IsOpen past) :
    ∃ units, Comes generate s ((entriesOf input strict content).map (·, s.walked units)) := by
  obtain ⟨units, collects⟩ := comes_collect_open keeps isOpen
  refine ⟨units, ?_⟩
  unfold entriesOf
  cases collected : typesOf input strict content with
  | none =>
    rw [collected] at collects
    exact comes_try_none collects
  | some result =>
    rw [collected] at collects
    cases result with
    | error fault => exact comes_try_error collects
    | ok graph => exact comes_try collects (comes_operation fun b => tells_project graph _)

theorem does_collect (keeps : Keeps input strict content past s) :
    Does input strict content past s machine .collect := by
  have needs : Step.collect.NeedsInfo := trivial
  by_cases isOpen : IsOpen past
  · obtain ⟨units, collects⟩ := comes_collect_open keeps isOpen
    obtain ⟨records, ran⟩ := collects machine
    exact does_of_ran needs (keeps.walked units) (runOn_answer _ .types ran)
      (.collected isOpen records)
  · obtain ⟨records, ran⟩ := tells_collect_closed (keeps.none isOpen) machine
    exact does_of_ran needs keeps (runOn_answer (some _) .types ran)
      (.outOfTurn needs isOpen records)

theorem does_generate (keeps : Keeps input strict content past s) :
    Does input strict content past s machine .generate := by
  have needs : Step.generate.NeedsInfo := trivial
  by_cases isOpen : IsOpen past
  · obtain ⟨units, generates⟩ := comes_generate_open keeps isOpen
    obtain ⟨records, ran⟩ := generates machine
    exact does_of_ran needs (keeps.walked units) (runOn_answer _ .entries ran)
      (.generated isOpen records)
  · obtain ⟨records, ran⟩ := tells_generate_closed (keeps.none isOpen) machine
    exact does_of_ran needs keeps (runOn_answer (some _) .entries ran)
      (.outOfTurn needs isOpen records)

/-- What an open session writes, once its entries are generated. -/
theorem does_write_open (keeps : Keeps input strict content past s) (sound : machine.Sound)
    (isOpen : IsOpen past) (output : Path) (pretty : Bool) :
    Does input strict content past s machine (.write output pretty) := by
  obtain ⟨units, generates⟩ := comes_generate_open keeps isOpen
  obtain ⟨records, ran⟩ := generates machine
  have does (result : Option (Except Fault (List MapEntry))) {machine' : Machine}
      (wrote : runOn (write output pretty) s machine = (result.map (·, s.walked units), machine'))
      (meets : Meets input strict content (IsOpen past) machine (.write output pretty)
        (result.map (Except.map .entries)) machine') :
      Does input strict content past s machine (.write output pretty) :=
    does_of_ran trivial (keeps.walked units) (runOn_answer result .entries wrote) meets
  cases generated : entriesOf input strict content with
  | none =>
    rw [generated] at ran
    exact does none (runOn_try_none ran) (.endless isOpen generated records)
  | some result =>
  rw [generated] at ran
  cases result with
  | error fault =>
    exact does (some _) (runOn_try_error ran) (.noMap isOpen generated records)
  | ok entries =>
    rcases writeEntries_cases (sound.emitAll records) entries output pretty (s.walked units) with
      ⟨number, more, unprinted, failed⟩ | ⟨text, printed, ⟨refusal, more, hinders, failed⟩ |
        ⟨goal, mode, before, behind, leads, _, written⟩⟩
    · rw [← Machine.emitAll_append] at failed
      exact does (some (.error (.unwritable (.overlong number))))
        ((runOn_try ran).trans (runOn_try_error failed)) (.overlong isOpen generated unprinted _)
    · rw [← Machine.emitAll_append] at failed
      exact does (some (.error (.unwritable (.refused output refusal))))
        ((runOn_try ran).trans (runOn_try_error failed))
        (.refused isOpen generated hinders.of_emitAll _)
    · exact does (some (.ok entries)) ((runOn_try ran).trans (runOn_try written))
        (.written isOpen generated printed (Machine.place_emitAll.mp leads)
          (Machine.getElem?_emitAll_put _ _ _ _ _))

theorem does_write (keeps : Keeps input strict content past s) (sound : machine.Sound)
    (output : Path) (pretty : Bool) :
    Does input strict content past s machine (.write output pretty) := by
  have needs : (Step.write output pretty).NeedsInfo := trivial
  by_cases isOpen : IsOpen past
  · exact does_write_open keeps sound isOpen output pretty
  · obtain ⟨records, ran⟩ := tells_generate_closed (keeps.none isOpen) machine
    have failed : runOn (write output pretty) s machine =
        (some (.error .notOpen, s), machine.emitAll records) := runOn_try_error ran
    exact does_of_ran needs keeps (runOn_answer (some _) .entries failed)
      (.outOfTurn needs isOpen records)

/-- Every step keeps what is true of a session. -/
theorem does_step (keeps : Keeps input strict content past s)
    (serves : machine.Serves input content) (step : Step) :
    Does input strict content past s machine step := by
  cases step with
  | enter => exact does_enter keeps serves
  | exit => exact does_exit keeps
  | collect => exact does_collect keeps
  | generate => exact does_generate keeps
  | write output pretty => exact does_write keeps serves.sound output pretty

theorem History.keeps (history : History input strict content past s) :
    Keeps input strict content past s := by
  induction history with
  | new machine =>
    exact ⟨rfl, rfl, fun isOpen => absurd isOpen not_isOpen_nil, fun _ => rfl⟩
  | next before serves ran ih =>
    obtain ⟨outcome, machine', ran', _, keeps⟩ := does_step ih serves _
    cases ran.symm.trans ran'
    exact keeps _ _ rfl

/-! ## Assertions -/

/-- A fault that stands for a failed assertion: that a session is open, or one of the decoder, which
holds on the size that a unit gives its addresses. -/
inductive Fault.IsAssertion : Fault → Prop where
  | notOpen : IsAssertion .notOpen
  | addressSize (path : Path) (size : Nat) : IsAssertion (.debugInfo path (.addressSize size))

/-- What comes of a step is a failed assertion. -/
def Asserts {α : Type} (comes : Option (Except Fault α)) : Prop :=
  ∃ fault, comes = some (.error fault) ∧ fault.IsAssertion

/-- The survey of an object file ends at a unit with a size of addresses that is not provided
for. -/
def OddAddressSize (input : Path) (content : Except Refusal Bytes) : Prop :=
  ∃ size, surveyOf input content = some (.error (.debugInfo input (.addressSize size)))

section Asserts

variable {α β : Type} {fault : Fault}

theorem asserts_error :
    Asserts (some (.error fault) : Option (Except Fault α)) ↔ fault.IsAssertion :=
  ⟨fun ⟨_, same, assertion⟩ => Except.error.inj (Option.some.inj same) ▸ assertion,
    fun assertion => ⟨fault, rfl, assertion⟩⟩

theorem not_asserts_ok (a : α) : ¬Asserts (some (.ok a) : Option (Except Fault α)) := by
  rintro ⟨fault, same, _⟩
  cases same

theorem not_asserts_none : ¬Asserts (none : Option (Except Fault α)) := by
  rintro ⟨fault, same, _⟩
  cases same

theorem asserts_map (f : α → β) (comes : Option (Except Fault α)) :
    Asserts (comes.map (Except.map f)) ↔ Asserts comes := by
  rcases comes with _ | fault | a
  · exact iff_of_false not_asserts_none not_asserts_none
  · exact asserts_error.trans asserts_error.symm
  · exact iff_of_false (not_asserts_ok (f a)) (not_asserts_ok a)

end Asserts

theorem not_isAssertion_of_infoOf {fault : Fault} (failed : infoOf input content = .error fault) :
    ¬fault.IsAssertion := by
  intro assertion
  unfold infoOf at failed
  cases content with
  | error refusal => cases failed; cases assertion
  | ok bytes =>
    simp only [Except.mapError, bind, Except.bind] at failed
    cases laidOut : Coff.Image.read bytes with
    | error damage => rw [laidOut] at failed; cases failed; cases assertion
    | ok image => rw [laidOut] at failed; cases failed

theorem surveyOf_asserts : Asserts (surveyOf input content) ↔ OddAddressSize input content := by
  constructor
  · rintro ⟨fault, failed, assertion⟩
    unfold OddAddressSize
    rw [failed]
    unfold surveyOf at failed
    cases reads : infoOf input content with
    | error fault' =>
      rw [reads] at failed
      cases failed
      exact absurd assertion (not_isAssertion_of_infoOf reads)
    | ok info =>
      rw [reads] at failed
      obtain ⟨result, _, same⟩ := Option.map_eq_some_iff.mp failed
      cases result with
      | ok survey => cases same
      | error damage =>
        cases same
        cases assertion
        exact ⟨_, rfl⟩
  · rintro ⟨size, failed⟩
    exact ⟨_, failed, .addressSize input size⟩

theorem graphOf_asserts (survey : Survey) : ¬Asserts (some (graphOf strict survey)) := by
  unfold graphOf
  split
  · rw [asserts_error]
    intro assertion
    cases assertion
  · exact not_asserts_ok _

theorem typesOf_asserts :
    Asserts (typesOf input strict content) ↔ OddAddressSize input content := by
  rw [← surveyOf_asserts]
  unfold typesOf
  rcases surveyOf input content with _ | fault | survey
  · exact iff_of_false not_asserts_none not_asserts_none
  · exact asserts_error.trans asserts_error.symm
  · exact iff_of_false (graphOf_asserts survey) (not_asserts_ok survey)

theorem entriesOf_asserts :
    Asserts (entriesOf input strict content) ↔ OddAddressSize input content :=
  (asserts_map _ _).trans typesOf_asserts

/-- A step on debug information fails an assertion out of its turn, and where the decoder does. -/
theorem Meets.asserts {opened : Prop}
    (meets : Meets input strict content opened machine step comes machine')
    (needs : step.NeedsInfo) : Asserts comes ↔ ¬opened ∨ OddAddressSize input content := by
  have entries : Asserts (entriesOf input strict content) ↔ OddAddressSize input content :=
    entriesOf_asserts
  cases meets with
  | entered | left => exact needs.elim
  | outOfTurn _ closed => exact iff_of_true ⟨_, rfl, .notOpen⟩ (.inl closed)
  | collected inTurn =>
    rw [asserts_map, typesOf_asserts, or_iff_right (not_not_intro inTurn)]
  | generated inTurn =>
    rw [asserts_map, entriesOf_asserts, or_iff_right (not_not_intro inTurn)]
  | endless inTurn circles =>
    rw [or_iff_right (not_not_intro inTurn), ← entries, circles]
    exact iff_of_false not_asserts_none not_asserts_none
  | noMap inTurn failed =>
    rw [or_iff_right (not_not_intro inTurn), ← entries, failed]
    exact asserts_error.trans asserts_error.symm
  | overlong inTurn generated | refused inTurn generated =>
    rw [or_iff_right (not_not_intro inTurn), ← entries, generated, asserts_error]
    exact iff_of_false (fun assertion => by cases assertion) (not_asserts_ok _)
  | written inTurn generated =>
    rw [or_iff_right (not_not_intro inTurn), ← entries, generated]
    exact iff_of_false (not_asserts_ok _) (not_asserts_ok _)

/-- Leaving lets go of all. -/
theorem runOn_exit (s : Session) (machine : Machine) : ∃ records,
    runOn Step.exit.run s machine = (some (.ok .nothing, s.closed), machine.emitAll records) := by
  obtain ⟨records, closes⟩ := tells_close s machine
  exact ⟨records, (runOn_bind closes).trans rfl⟩

/-- **Sessions can be run again and again.** Whatever the steps so far, a session with debug
information holds the image and the contents as well, it has debug information if and only if it is
open, and leaving it lets go of all. A step comes to what the object file, the choice of the session
and the step itself determine. An assertion fails out of turn, or where the size of addresses in a
unit is not provided for. -/
theorem history_repeats (history : History input strict content past s) :
    (s.debugInfo ≠ none → s.image ≠ none ∧ s.contents ≠ none) ∧
    (s.debugInfo ≠ none ↔ IsOpen past) ∧
    ∀ machine : Machine, machine.Serves input content → ∀ step : Step,
      ∃ outcome machine', runOn step.run s machine = (outcome, machine') ∧
        Meets input strict content (IsOpen past) machine step (outcome.map Prod.fst) machine' ∧
        (step = .exit → ∃ after, outcome = some (.ok .nothing, after) ∧
          after.contents = none ∧ after.image = none ∧ after.debugInfo = none) ∧
        (step.NeedsInfo →
          (Asserts (outcome.map Prod.fst) ↔ ¬IsOpen past ∨ OddAddressSize input content)) := by
  have keeps := history.keeps
  refine ⟨fun held => ?_, ⟨fun held => ?_, fun isOpen => ?_⟩, fun machine serves step => ?_⟩
  · have isOpen : IsOpen past := by_contra fun closed => held (keeps.none closed)
    obtain ⟨bytes, image, _, _, same⟩ := keeps.holds isOpen
    rw [← same]
    exact ⟨Option.some_ne_none image, Option.some_ne_none bytes⟩
  · exact by_contra fun closed => held (keeps.none closed)
  · obtain ⟨info, held, _⟩ := (keeps.holds isOpen).infoOf_eq input
    rw [held]
    exact Option.some_ne_none info
  · obtain ⟨outcome, machine', ran, meets, _⟩ := does_step keeps serves step
    refine ⟨outcome, machine', ran, meets, ?_, meets.asserts⟩
    rintro rfl
    obtain ⟨records, leaves⟩ := runOn_exit s machine
    cases ran.symm.trans leaves
    exact ⟨s.closed, rfl, rfl, rfl, rfl⟩

/-- A machine with one object file. -/
def holding (contents : Bytes) : Machine where
  files := ((∅ : FileTree).insert [] .directory).insert ["fw.out"] (.file contents 0o644)

def objectPath : Path :=
  ⟨.relative, ["fw.out"]⟩

theorem serves_holding (contents : Bytes) :
    (holding contents).Serves objectPath (.ok contents) := by
  have isName : FileTree.IsName "fw.out" := ⟨by decide, by decide, by decide⟩
  have root : ((∅ : FileTree).insert [] .directory)[([] : List String)]? = some .directory := by
    decide
  have free : ((∅ : FileTree).insert [] .directory)[["fw.out"]]? ≠ some .directory := by decide
  have tree := FileTree.isTree_root.insert_child isName root (.file contents 0o644)
    fun taken => absurd taken free
  have leads : (holding contents).place objectPath = .ok ["fw.out"] := by
    have inside : (holding contents).files[([] : List String)]? = some .directory :=
      (FileTree.getElem?_insert_of_ne _ (by decide)).trans root
    have stepped : Machine.step (holding contents).files [] "fw.out" = .ok ["fw.out"] :=
      Machine.step_of_directory inside isName
    refine Machine.place_eq_ok.mpr ⟨by decide, ?_⟩
    change (Machine.step (holding contents).files [] "fw.out" >>= pure) = _
    rw [stepped]
    rfl
  refine ⟨⟨tree, fun log kept => by cases kept⟩, ?_, fun place _ same => by cases same⟩
  rw [Machine.readFile, Machine.fileAt_of_file leads (FileTree.getElem?_insert_self _)]
  rfl

/-- A step with one possible reply makes it, and the history goes on. -/
theorem History.does (history : History input strict content past s)
    (serves : machine.Serves input content)
    (settled : ∀ comes machine', Meets input strict content (IsOpen past) machine step comes
      machine' → comes = some reply) :
    ∃ t machine', runOn step.run s machine = (some (reply, t), machine') ∧
      History input strict content ((step, reply) :: past) t := by
  obtain ⟨outcome, machine', ran, meets, _⟩ := does_step history.keeps serves step
  obtain ⟨⟨_, t⟩, rfl, rfl⟩ := Option.map_eq_some_iff.mp (settled _ _ meets)
  exact ⟨t, machine', ran, history.next serves ran⟩

/-- Entering opens a session where the object file has debug information. -/
theorem History.enter (history : History input strict content past s)
    (serves : machine.Serves input content)
    (reads : (infoOf input content).map (fun _ => ()) = .ok ()) :
    ∃ t, History input strict content ((.enter, .ok .nothing) :: past) t := by
  cases info : infoOf input content with
  | error fault => rw [info] at reads; cases reads
  | ok _ =>
    have settled (comes machine')
        (meets : Meets input strict content (IsOpen past) machine .enter comes machine') :
        comes = some (.ok .nothing) := by
      rw [meets.of_enter, info]
      rfl
    obtain ⟨t, _, _, entered⟩ := history.does serves settled
    exact ⟨t, entered⟩

theorem isOpen_entered (past : Past) : IsOpen ((.enter, .ok .nothing) :: past) :=
  isOpen_cons.mpr (.inl ⟨rfl, .nothing, rfl⟩)

theorem eq_error_of_map {α : Type} {result : Option (Except Fault α)} {fault : Fault}
    (failed : result.map (Except.map fun _ => ()) = some (.error fault)) :
    result = some (.error fault) := by
  rcases result with _ | fault' | a
  · cases failed
  · cases failed
    rfl
  · cases failed

theorem infoOf_spareObject :
    (infoOf objectPath (.ok spareObject.bytes)).map (fun _ => ()) = .ok () := by
  decide +kernel

theorem typesOf_spareObject :
    typesOf objectPath true (.ok spareObject.bytes) = some (.error (.omissions 1)) :=
  eq_error_of_map (by decide +kernel)

theorem entriesOf_spareObject :
    ∃ entries, entriesOf objectPath false (.ok spareObject.bytes) = some (.ok entries) ∧
      entries.length = 1 := by
  have size : (entriesOf objectPath false (.ok spareObject.bytes)).map (Except.map List.length) =
      some (.ok 1) := by
    decide +kernel
  rcases found : entriesOf objectPath false (.ok spareObject.bytes) with _ | fault | entries
  · rw [found] at size; cases size
  · rw [found] at size; cases size
  · rw [found] at size
    exact ⟨entries, rfl, Except.ok.inj (Option.some.inj size)⟩

/-- A session that is told to generate before it is entered. Once it has been entered it generates
one entry, and the same one again; a strict session counts one omission, and one again. -/
theorem history_repeats_spareObject :
    ∃ entries s t, entries.length = 1 ∧
      (holding spareObject.bytes).Serves objectPath (.ok spareObject.bytes) ∧
      History objectPath false (.ok spareObject.bytes)
        [(.generate, .ok (.entries entries)), (.enter, .ok .nothing),
          (.generate, .error .notOpen)] s ∧
      History objectPath true (.ok spareObject.bytes)
        [(.collect, .error (.omissions 1)), (.enter, .ok .nothing)] t ∧
      s.debugInfo ≠ none ∧
      (∃ after machine', runOn Step.generate.run s (holding spareObject.bytes) =
        (some (.ok (.entries entries), after), machine')) ∧
      ∃ after machine', runOn Step.collect.run t (holding spareObject.bytes) =
        (some (.error (.omissions 1), after), machine') := by
  have serves := serves_holding spareObject.bytes
  obtain ⟨entries, generated, size⟩ := entriesOf_spareObject
  have generates {opened : Prop} (isOpen : opened) (comes machine')
      (meets : Meets objectPath false (.ok spareObject.bytes) opened (holding spareObject.bytes)
        .generate comes machine') : comes = some (.ok (.entries entries)) := by
    rw [meets.of_generate isOpen, generated]
    rfl
  have collects {opened : Prop} (isOpen : opened) (comes machine')
      (meets : Meets objectPath true (.ok spareObject.bytes) opened (holding spareObject.bytes)
        .collect comes machine') : comes = some (.error (.omissions 1)) := by
    rw [meets.of_collect isOpen, typesOf_spareObject]
    rfl
  -- The session that allows omissions, from its first step out of turn on.
  have early (comes machine')
      (meets : Meets objectPath false (.ok spareObject.bytes) (IsOpen [])
        (holding spareObject.bytes) .generate comes machine') :
      comes = some (.error .notOpen) :=
    meets.of_closed trivial not_isOpen_nil
  obtain ⟨_, _, _, fresh⟩ := (History.new (holding spareObject.bytes)).does serves early
  obtain ⟨_, entered⟩ := fresh.enter serves infoOf_spareObject
  obtain ⟨s, _, _, lenient⟩ := entered.does serves (generates (isOpen_entered _))
  have isOpen : IsOpen [(.generate, .ok (.entries entries)), (.enter, .ok .nothing),
      (.generate, .error .notOpen)] := isOpen_cons.mpr (.inr ⟨by decide, isOpen_entered _⟩)
  obtain ⟨_, opens, next⟩ := history_repeats lenient
  obtain ⟨outcome, machine', again, meets, _⟩ := next _ serves .generate
  obtain ⟨⟨_, after⟩, rfl, rfl⟩ := Option.map_eq_some_iff.mp (generates isOpen _ _ meets)
  -- The strict session.
  obtain ⟨_, entered⟩ :=
    (History.new (holding spareObject.bytes)).enter serves infoOf_spareObject
  obtain ⟨t, _, _, refused⟩ := entered.does serves (collects (isOpen_entered _))
  have isOpen' : IsOpen [(.collect, .error (.omissions 1)), (.enter, .ok .nothing)] :=
    isOpen_cons.mpr (.inr ⟨by decide, isOpen_entered _⟩)
  obtain ⟨after', machine'', refuses, _⟩ := refused.does serves (collects isOpen')
  exact ⟨entries, s, t, size, serves, lenient, refused, opens.mpr isOpen,
    ⟨after, machine', again⟩, after', machine'', refuses⟩

/-- An object file with a unit of debug information whose header gives an address no bytes. -/
def noAddress : Bytes :=
  -- The header, and two sections by their offsets into the names at the end.
  [0xc2, 0, 2, 0, 0, 0, 0, 0, 130, 0, 0, 0, 0, 0, 0, 0, 0, 0, 0, 0, 0x9d, 0] ++
  [0, 0, 0, 0, 4, 0, 0, 0] ++ List.replicate 8 0 ++ [11, 0, 0, 0, 118, 0, 0, 0] ++
    List.replicate 16 0 ++ [0x40, 0, 0, 0, 0, 0, 0, 0] ++
  [0, 0, 0, 0, 16, 0, 0, 0] ++ List.replicate 8 0 ++ [1, 0, 0, 0, 129, 0, 0, 0] ++
    List.replicate 16 0 ++ [0x40, 0, 0, 0, 0, 0, 0, 0] ++
  -- The header of the unit, no abbreviations, and the names.
  [7, 0, 0, 0, 3, 0, 0, 0, 0, 0, 0] ++ [0] ++
  [30, 0, 0, 0] ++ ".debug_info\x00.debug_abbrev\x00".toUTF8.toList

theorem surveyOf_noAddress :
    surveyOf objectPath (.ok noAddress) =
      some (.error (.debugInfo objectPath (.addressSize 0))) :=
  eq_error_of_map (by decide +kernel)

/-- An assertion of the decoder fails in a session that is open and holds debug information. -/
theorem collect_asserts_noAddress :
    ∃ s, History objectPath false (.ok noAddress) [(.enter, .ok .nothing)] s ∧
      IsOpen [(.enter, .ok .nothing)] ∧ s.debugInfo ≠ none ∧
      (holding noAddress).Serves objectPath (.ok noAddress) ∧
      ∃ reply after machine', Asserts (some reply) ∧
        runOn Step.collect.run s (holding noAddress) = (some (reply, after), machine') := by
  have serves := serves_holding noAddress
  have fresh : History objectPath false (.ok noAddress) [] _ := .new (holding noAddress)
  obtain ⟨s, entered⟩ := fresh.enter serves (by decide +kernel)
  obtain ⟨info, held, _⟩ := (entered.keeps.holds (isOpen_entered _)).infoOf_eq objectPath
  obtain ⟨outcome, machine', ran, meets, _⟩ := does_step entered.keeps serves .collect
  obtain ⟨fault, fails, assertion⟩ :=
    (meets.asserts trivial).mpr (.inr ⟨0, surveyOf_noAddress⟩)
  obtain ⟨⟨_, after⟩, rfl, rfl⟩ := Option.map_eq_some_iff.mp fails
  exact ⟨s, entered, isOpen_entered _, held ▸ Option.some_ne_none info, serves, .error fault,
    after, machine', ⟨fault, rfl, assertion⟩, ran⟩

end Session

end GlobalMap
