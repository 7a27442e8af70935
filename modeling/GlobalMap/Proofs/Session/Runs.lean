import GlobalMap.Proofs.Host.Records
import GlobalMap.Session.Mapping

/-! What actions inside a session come to, whatever the machine is that they run on. Records are
handed in and the time is read along the way, but neither shows in the result of an action or in
the session after it: a stage adds nothing to either, and a block is gone from the progress once it
is left. An action that never ends does so on every machine as well. -/
namespace GlobalMap.Session

/-- What an action in a session ends in, with the session after it, and the machine after it. An
action that never ends has neither result nor session. -/
def runOn {α : Type} (action : InSession OnMachine α) (s : Session) (machine : Machine) :
    Option (α × Session) × Machine :=
  (action.run s).run.run machine

/-- On every machine an action in a session ends in a result and leaves a session behind. -/
def Runs {α : Type} (action : InSession OnMachine α) (s : Session) (result : α) (after : Session) :
    Prop :=
  ∀ machine : Machine, (runOn action s machine).1 = some (result, after)

/-- What an action comes to on every machine, while it does nothing to the machine but hand in
records. -/
def Comes {α : Type} (action : InSession OnMachine α) (s : Session)
    (outcome : Option (α × Session)) : Prop :=
  ∀ machine : Machine, ∃ records : List Record,
    runOn action s machine = (outcome, machine.emitAll records)

/-- An action ends in a result and leaves a session behind. -/
abbrev Tells {α : Type} (action : InSession OnMachine α) (s : Session) (result : α)
    (after : Session) : Prop :=
  Comes action s (some (result, after))

theorem Tells.runs {α : Type} {action : InSession OnMachine α} {s after : Session} {result : α}
    (tells : Tells action s result after) : Runs action s result after := by
  intro machine
  obtain ⟨records, ended⟩ := tells machine
  exact congrArg Prod.fst ended

section Rules

variable {α β ε : Type} {s t : Session} {a : α} {x : InSession OnMachine α}
  {f : α → InSession OnMachine β} {outcome : Option (β × Session)}

theorem tells_pure (a : α) (s : Session) : Tells (pure a) s a s :=
  fun _ => ⟨[], rfl⟩

theorem comes_forever (s : Session) : Comes (forever : InSession OnMachine α) s none :=
  fun _ => ⟨[], rfl⟩

theorem runOn_bind_eq (x : InSession OnMachine α) (f : α → InSession OnMachine β) (s : Session)
    (machine : Machine) :
    runOn (x >>= f) s machine =
      match runOn x s machine with
      | (some (a, t), machine') => runOn (f a) t machine'
      | (none, machine') => (none, machine') := by
  have first : (x.run s).run.run machine = runOn x s machine := rfl
  rw [runOn, StateT.run_bind, OptionT.run_bind, Option.elimM, StateT.run_bind, first]
  cases runOn x s machine with
  | mk outcome machine' => cases outcome <;> rfl

theorem runOn_bind {machine machine' : Machine}
    (first : runOn x s machine = (some (a, t), machine')) :
    runOn (x >>= f) s machine = runOn (f a) t machine' := by
  rw [runOn_bind_eq, first]

theorem runOn_bind_none {machine machine' : Machine}
    (first : runOn x s machine = (none, machine')) :
    runOn (x >>= f) s machine = (none, machine') := by
  rw [runOn_bind_eq, first]

theorem comes_bind (first : Tells x s a t) (next : Comes (f a) t outcome) :
    Comes (x >>= f) s outcome := by
  intro machine
  obtain ⟨records, begun⟩ := first machine
  obtain ⟨more, ended⟩ := next (machine.emitAll records)
  refine ⟨records ++ more, ?_⟩
  rw [runOn_bind begun, ended, Machine.emitAll_append]

/-- Nothing comes behind what never ends. -/
theorem comes_bind_none (first : Comes x s none) : Comes (x >>= f) s none := by
  intro machine
  obtain ⟨records, begun⟩ := first machine
  exact ⟨records, runOn_bind_none begun⟩

theorem tells_get (s : Session) : Tells get s s s :=
  fun _ => ⟨[], rfl⟩

theorem tells_modify (change : Session → Session) (s : Session) :
    Tells (modify change) s ⟨⟩ (change s) :=
  fun _ => ⟨[], rfl⟩

theorem tells_emit (r : Record) (s : Session) : Tells (Host.emit r) s () s :=
  fun _ => ⟨[r], rfl⟩

/-- What does not depend on the time may look at it. -/
theorem comes_now_bind {f : Nat → InSession OnMachine β} (each : ∀ now, Comes (f now) s outcome) :
    Comes (Host.now >>= f) s outcome :=
  fun machine => each machine.clock machine

theorem tells_forIn {ι : Type} {entries : List ι} {g : ι → InSession OnMachine PUnit}
    (each : ∀ i, Tells (g i) s ⟨⟩ s) :
    Tells (forIn entries PUnit.unit fun i _ => do g i; pure (.yield PUnit.unit)) s ⟨⟩ s := by
  induction entries with
  | nil => exact tells_pure _ _
  | cons i rest ih =>
    rw [List.forIn_cons]
    refine comes_bind (comes_bind (each i) (tells_pure _ _)) ih

theorem tells_advance (progress : Tracker) (remark : Option Remark) (s : Session) :
    Tells (advance progress remark) s () { s with progress } := by
  cases remark with
  | none => exact fun _ => ⟨[], rfl⟩
  | some r => exact fun _ => ⟨[_], rfl⟩

/-- A stage is its action, whatever comes of it. -/
theorem comes_stage {channel name : String} {reason : ε → String}
    {x : InSession OnMachine (Except ε α)} {outcome : Option (Except ε α × Session)}
    (action : Comes x s outcome) : Comes (stage channel name reason x) s outcome := by
  refine comes_bind (tells_emit _ s) (comes_now_bind fun start => ?_)
  cases outcome with
  | none => exact comes_bind_none action
  | some ended =>
    obtain ⟨result, t⟩ := ended
    refine comes_bind action (comes_now_bind fun now => ?_)
    cases result with
    | ok a => exact comes_bind (tells_emit _ t) (tells_pure _ t)
    | error e => exact comes_bind (tells_emit _ t) (tells_pure _ t)

section Failing

variable {x : InSession OnMachine (Except ε α)} {f : α → ExceptT ε (InSession OnMachine) β}
  {outcome : Option (Except ε β × Session)}

/-- An action goes on if the one before it came to a result. -/
theorem comes_try (first : Tells x s (.ok a) t) (next : Comes (f a).run t outcome) :
    Comes (ExceptT.mk x >>= f).run s outcome := by
  change Comes (x >>= ExceptT.bindCont f) s outcome
  exact comes_bind first next

theorem comes_try_error {e : ε} (first : Tells x s (.error e) t) :
    Tells (ExceptT.mk x >>= f).run s (.error e) t := by
  change Tells (x >>= ExceptT.bindCont f) s (.error e) t
  exact comes_bind first (tells_pure _ t)

theorem comes_try_none (first : Comes x s none) : Comes (ExceptT.mk x >>= f).run s none := by
  change Comes (x >>= ExceptT.bindCont f) s none
  exact comes_bind_none first

end Failing

theorem tells_lift (tells : Tells x s a t) :
    Tells (ExceptT.lift x : ExceptT ε (InSession OnMachine) α).run s (.ok a) t := by
  intro machine
  obtain ⟨records, told⟩ := tells machine
  refine ⟨records, ?_⟩
  change runOn (Except.ok <$> x) s machine = _
  rw [map_eq_pure_bind]
  exact runOn_bind told

end Rules

/-! ## Progress -/

/-- A session in a block of its progress. -/
def within (s : Session) (b : Block) : Session :=
  { s with progress := { s.progress with blocks := b :: s.progress.blocks } }

/-- A session that is further on by some units and entries. -/
def counted (s : Session) (units entries : Nat) : Session :=
  { s with progress := { s.progress with
    units := s.progress.units + units
    entries := s.progress.entries + entries } }

theorem counted_counted (s : Session) (m n m' n' : Nat) :
    (s.counted m n).counted m' n' = s.counted (m + m') (n + n') := by
  simp only [counted, Nat.add_assoc]

section Blocks

variable {α ε : Type} {s t : Session} {x : InSession OnMachine (Except ε α)} {reason : ε → String}
  {outcome : Option (Except ε α × Session)}

/-- A block is gone from the progress once it is left, however it is left. -/
theorem comes_block {enter : Tracker → Nat → Tracker × Remark} {b : Nat → Block}
    (entered : ∀ now, { s with progress := (enter s.progress now).1 } = t.within (b now))
    (action : ∀ now, Comes x (t.within (b now))
      (outcome.map fun ended => (ended.1, ended.2.within (b now)))) :
    Comes (block enter reason x) s outcome := by
  refine comes_bind (tells_get s) (comes_now_bind fun now => ?_)
  refine comes_bind (tells_advance _ _ s) ?_
  rw [entered now]
  cases outcome with
  | none => exact comes_bind_none (action now)
  | some ended =>
    obtain ⟨result, u⟩ := ended
    refine comes_bind (action now) (comes_now_bind fun later => comes_bind (tells_get _) ?_)
    cases result with
    | ok a => exact comes_bind (tells_advance _ _ _) (tells_pure _ _)
    | error e => exact comes_bind (tells_advance _ _ _) (tells_pure _ _)

theorem comes_operation {name : String}
    (action : ∀ b, Comes x (s.within b) (outcome.map fun ended => (ended.1, ended.2.within b))) :
    Comes (operation name reason x) s outcome :=
  comes_block (fun _ => rfl) fun now => action (.operation name now)

end Blocks

/-! ## The survey -/

/-- What a survey ends in: itself, unless it met damage. Where the entries lead around in circles it
does not end. -/
def ended : Survey × Option Hindrance → Option (Except Damage Survey)
  | (survey, none) => some (.ok survey)
  | (_, some (.damaged damage)) => some (.error damage)
  | (_, some .endless) => none

/-- The units up to the first whose walk does not get to its end. -/
def started : List DebugUnit → List DebugUnit
  | [] => []
  | u :: rest => u :: if u.trail.failure.isSome then [] else started rest

theorem started_of_undamaged {units : List DebugUnit}
    (undamaged : ∀ u ∈ units, u.trail.failure = none) : started units = units := by
  induction units with
  | nil => rfl
  | cons u rest ih =>
    obtain ⟨here, others⟩ := List.forall_mem_cons.mp undamaged
    rw [started, here, ih others]
    rfl

theorem comes_walkUnit {s : Session} {u : DebugUnit} (before : Survey) :
    Comes (walkUnit before u) s ((ended (before.addTrail u.trail, u.trail.failure)).map
      (·, s.counted 1 (u.trail.findings.countP Finding.isVisit))) := by
  refine comes_block (t := s.counted 1 0) (b := fun now => .unit now s.progress.entries)
    (fun _ => rfl) fun now => ?_
  refine comes_bind (tells_forIn fun omission => tells_emit _ _) (comes_bind (tells_get _) ?_)
  refine comes_bind (tells_advance _ _ _) ?_
  cases u.trail.failure with
  | some hindrance =>
    cases hindrance with
    | damaged damage => exact tells_pure _ _
    | endless => exact comes_forever _
  | none => exact tells_pure _ _

/-- The visits of walks over units. -/
def visits (units : List DebugUnit) : Nat :=
  (units.flatMap fun u => u.trail.findings).countP Finding.isVisit

theorem visits_cons (u : DebugUnit) (rest : List DebugUnit) :
    visits (u :: rest) = u.trail.findings.countP Finding.isVisit + visits rest := by
  rw [visits, List.flatMap_cons, List.countP_append]
  rfl

/-- A session that has walked units as far as they go. -/
def walked (s : Session) (units : List DebugUnit) : Session :=
  s.counted (started units).length (visits (started units))

/-- Walking units comes to adding them one after the other. -/
theorem comes_walkUnits {s : Session} (units : List DebugUnit) (before : Survey) :
    Comes (walkUnits before units) s ((ended (before.addUnits units)).map (·, s.walked units)) := by
  induction units generalizing s before with
  | nil => exact tells_pure _ s
  | cons u rest ih =>
    have here := comes_walkUnit (s := s) (u := u) before
    rw [walked, started, visits_cons, List.length_cons, Nat.add_comm _ 1, Survey.addUnits,
      ← counted_counted]
    cases found : u.trail.failure with
    | some hindrance =>
      rw [found] at here
      cases hindrance with
      | damaged damage => exact comes_bind here (tells_pure _ _)
      | endless => exact comes_bind_none here
    | none =>
      rw [found] at here
      exact comes_bind here (ih (before.addTrail u.trail))

theorem tells_reportSurvey (survey : Survey) (s : Session) :
    Tells (reportSurvey survey) s () s := by
  refine comes_bind (tells_get s) (comes_now_bind fun now => comes_bind (tells_advance _ _ s) ?_)
  cases Omission.summary? survey.omissions with
  | none => exact tells_emit _ s
  | some text => exact comes_bind (tells_emit _ s) (tells_emit _ s)

theorem add_eq (s : Survey) (info : DebugInfo) :
    s.add info = ((s.addUnits info.units).1,
      (s.addUnits info.units).2.or (info.failure.map Hindrance.damaged)) :=
  rfl

theorem comes_survey {s : Session} (info : DebugInfo) :
    Comes (survey info) s ((ended (Survey.add {} info)).map (·, s.walked info.units)) := by
  refine comes_stage ?_
  have walks := comes_walkUnits (s := s) info.units {}
  rw [add_eq]
  cases added : ({} : Survey).addUnits info.units with
  | mk after hindrance =>
    rw [added] at walks
    cases hindrance with
    | some hindrance =>
      cases hindrance with
      | damaged damage => exact comes_bind walks (tells_pure _ _)
      | endless => exact comes_bind_none walks
    | none =>
      cases info.failure with
      | some damage => exact comes_bind walks (tells_pure _ _)
      | none =>
        exact comes_bind walks (comes_bind (tells_reportSurvey _ _) (tells_pure _ _))

/-! ## The resolved graph -/

theorem tells_reportNotice (notice : AliasNotice) (s : Session) :
    Tells (reportNotice notice) s () s := by
  cases notice <;> exact tells_emit _ s

/-- A graph is always resolved. -/
theorem tells_resolve (graph : TypeGraph) (s : Session) :
    Tells (resolve graph) s (.ok graph.resolve.graph) s := by
  refine comes_stage (comes_bind (tells_forIn fun notice => tells_reportNotice notice s) ?_)
  refine comes_bind (comes_stage ?_) (comes_bind (tells_emit _ s) (tells_pure _ s))
  refine comes_bind (tells_forIn fun cut => tells_emit _ s) ?_
  cases graph.resolve.flattener.summary? with
  | none => exact tells_pure _ s
  | some text => exact comes_bind (tells_emit _ s) (tells_pure _ s)

/-! ## Collecting -/

theorem comes_walk {s : Session} {info : DebugInfo} (held : s.debugInfo = some info) :
    Comes walk s ((ended (Survey.add {} info)).map fun result =>
      (result.mapError (.debugInfo s.input), s.walked info.units)) := by
  refine comes_bind (tells_get s) ?_
  rw [held]
  refine comes_bind (tells_get s) (comes_operation fun b => ?_)
  have surveys := comes_survey (s := s.within b) info
  cases found : ended (Survey.add {} info) with
  | none =>
    rw [found] at surveys
    exact comes_bind_none surveys
  | some result =>
    rw [found] at surveys
    exact comes_bind surveys (tells_pure _ _)

theorem tells_checkOmissions (survey : Survey) (s : Session) :
    Tells (checkOmissions survey) s
      (if s.strict && !survey.omissions.isEmpty then .error (.omissions survey.omissions.length)
        else .ok ()) s := by
  refine comes_bind (tells_get s) ?_
  by_cases refused : s.strict && !survey.omissions.isEmpty
  · rw [if_pos refused, if_pos refused]
    exact tells_pure _ s
  · rw [if_neg refused, if_neg refused]
    exact tells_pure _ s

/-- What collecting comes to, after the survey: the graph is resolved unless the session is strict
and something was left out. -/
def collected (s : Session) (survey : Survey) : Except Fault TypeGraph :=
  if s.strict && !survey.omissions.isEmpty then .error (.omissions survey.omissions.length)
  else .ok survey.graph.resolve.graph

/-- Behind a survey, collecting checks what was left out of it and resolves its graph. -/
theorem tells_collectRest (survey : Survey) (s : Session) :
    Tells (ExceptT.run do
        ExceptT.mk (checkOmissions survey)
        ExceptT.mk (operation "resolve types" Fault.message (resolve survey.graph)))
      s (s.collected survey) s := by
  have checked := tells_checkOmissions survey s
  unfold collected
  by_cases refused : s.strict && !survey.omissions.isEmpty
  · rw [if_pos refused] at checked ⊢
    exact comes_try_error checked
  · rw [if_neg refused] at checked ⊢
    exact comes_try checked (comes_operation fun b => tells_resolve _ _)

/-- Collecting ends in the resolved graph of the survey, in the damage that ended the survey, or in
what was left out of it. It does not end where the survey does not. -/
theorem comes_collect {s : Session} {info : DebugInfo} (held : s.debugInfo = some info) :
    Comes collect s ((ended (Survey.add {} info)).map fun result =>
      (result.mapError (Fault.debugInfo s.input) >>= s.collected, s.walked info.units)) := by
  refine comes_stage ?_
  have walks := comes_walk held
  cases found : ended (Survey.add {} info) with
  | none =>
    rw [found] at walks
    exact comes_try_none walks
  | some result =>
    rw [found] at walks
    cases result with
    | error damage => exact comes_try_error walks
    -- The walk has left the choice of the session alone.
    | ok survey => exact comes_try walks (tells_collectRest survey (s.walked info.units))

theorem addUnits_undamaged {units : List DebugUnit}
    (undamaged : ∀ u ∈ units, u.trail.failure = none) (s : Survey) :
    (s.addUnits units).2 = none := by
  induction units generalizing s with
  | nil => rfl
  | cons u rest ih =>
    obtain ⟨here, others⟩ := List.forall_mem_cons.mp undamaged
    rw [Survey.addUnits, here]
    exact ih others _

theorem ended_add_of_undamaged {info : DebugInfo}
    (undamaged : ∀ u ∈ info.units, u.trail.failure = none) (complete : info.failure = none) :
    ended (Survey.add {} info) = some (.ok (Survey.add {} info).1) := by
  have units : (({} : Survey).addUnits info.units).2 = none :=
    addUnits_undamaged undamaged {}
  rw [add_eq, units, complete]
  rfl

theorem runs_collect {s : Session} {info : DebugInfo} (held : s.debugInfo = some info)
    (undamaged : ∀ u ∈ info.units, u.trail.failure = none) (complete : info.failure = none) :
    Runs collect s (s.collected (Survey.add {} info).1)
      (s.counted info.units.length (visits info.units)) := by
  have collects := comes_collect held
  rw [ended_add_of_undamaged undamaged complete, walked, started_of_undamaged undamaged] at collects
  exact Tells.runs collects

end GlobalMap.Session
