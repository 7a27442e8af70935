import GlobalMap.Proofs.Host.Programs
import GlobalMap.Proofs.Session.Runs

/-! Nested blocks under failure. An activity enters operations and units one inside the other,
counts entries, lets time pass, raises errors and handles them at any level; it runs in the blocks
of a session. What it comes to is said without any blocks: an account of the activity hands the
names of the open operations down and adds up what it finds on the way back. -/
namespace GlobalMap

/-! ## Time -/

namespace Machine

/-- A machine some time later. -/
def later (m : Machine) (span : Nat) : Machine :=
  { m with clock := m.clock + span }

theorem later_later (m : Machine) (span more : Nat) :
    (m.later span).later more = m.later (span + more) := by
  simp only [later, Nat.add_assoc]

theorem showRecord_later (m : Machine) (span : Nat) (r : Record) :
    (m.later span).showRecord r = (m.showRecord r).later span := by
  have same : (m.later span).shown = m.shown := rfl
  unfold showRecord
  rw [same]
  split <;> rfl

theorem appendLine_later (m : Machine) (span : Nat) (place : List String) (line : String) :
    (m.later span).appendLine place line = (m.appendLine place line).later span := by
  have same : (m.later span).files = m.files := rfl
  unfold appendLine
  rw [same]
  rcases m.files[place]? with _ | (_ | _) <;> rfl

theorem keepRecord_later (m : Machine) (span : Nat) (r : Record) :
    (m.later span).keepRecord r = (m.keepRecord r).later span := by
  have same : (m.later span).kept = m.kept := rfl
  unfold keepRecord
  rw [same]
  cases m.kept with
  | none => rfl
  | some place => exact m.appendLine_later span place _

theorem emit_later (m : Machine) (span : Nat) (r : Record) :
    (m.later span).emit r = (m.emit r).later span := by
  have recorded : { m.later span with records := (m.later span).records ++ [r] } =
      ({ m with records := m.records ++ [r] } : Machine).later span := rfl
  unfold emit
  rw [recorded, showRecord_later, keepRecord_later]

/-- Records do not depend on the time at which they are handed in. -/
theorem emitAll_later (m : Machine) (span : Nat) (records : List Record) :
    (m.later span).emitAll records = (m.emitAll records).later span := by
  induction records generalizing m with
  | nil => rfl
  | cons r rest ih =>
    change ((m.later span).emit r).emitAll rest = _
    rw [emit_later, ih]
    rfl

theorem clock_emitAll (m : Machine) (records : List Record) :
    (m.emitAll records).clock = m.clock := by
  obtain ⟨_, _, _, same, _⟩ := emitAll_eq m records
  rw [same]

end Machine

namespace Session

/-! ## Activities -/

/-- What may be done in the blocks of a session. -/
inductive Activity (ε : Type) where
  | idle
  /-- Visits an entry. -/
  | count
  /-- Lets time pass. -/
  | wait (span : Nat)
  | raise (e : ε)
  | seq (first next : Activity ε)
  /-- Goes on to a handler where its body raises an error; the handler may raise it again. -/
  | attempt (body : Activity ε) (handler : ε → Activity ε)
  | operation (name : String) (body : Activity ε)
  | unit (offset length : Int) (body : Activity ε)

variable {ε : Type}

/-- Runs an activity in a session. -/
def Activity.run (reason : ε → String) : Activity ε → InSession OnMachine (Except ε Unit)
  | .idle => return .ok ()
  | .count => do
    advance ((← get).progress.countEntries 1) none
    return .ok ()
  | .wait span => do
    OnMachine.lift (OnMachine.change fun m => m.later span)
    return .ok ()
  | .raise e => return .error e
  | .seq first next => do
    match ← first.run reason with
    | .error e => return .error e
    | .ok () => next.run reason
  | .attempt body handler => do
    match ← body.run reason with
    | .error e => (handler e).run reason
    | .ok () => return .ok ()
  | .operation name body => Session.operation name reason (body.run reason)
  | .unit offset length body =>
    block (fun t now => t.enterUnit offset length now) reason (body.run reason)

/-! ## Accounts -/

/-- A block that an error has left. -/
inductive Failure where
  /-- An operation, by the names of those open at that point, the outermost first and it last. -/
  | operation (names : List String) (span : Nat) (reason : String)
  /-- A unit, by its number. -/
  | unit (number span : Nat) (reason : String)

/-- The record of a block that an error has left. -/
def Failure.record : Failure → Record
  | operation names span reason =>
    let chain := " -> ".intercalate names
    ⟨.error, Channel.generator,
      s!"Failed operation: {chain} after {Elapsed.seconds 3 span}s: {reason}"⟩
  | unit number span reason => ⟨.error, Channel.generator,
      s!"Unit #{number} failed after {Elapsed.seconds 3 span}s: {reason}"⟩

/-- What an activity comes to. -/
structure Account (ε : Type) where
  /-- Whether an error leaves the activity, and which. -/
  result : Except ε Unit := .ok ()
  /-- The number of units entered. -/
  units : Nat := 0
  /-- The number of entries counted. -/
  entries : Nat := 0
  /-- How long it takes. -/
  span : Nat := 0
  /-- The blocks that an error has left, in that order. -/
  failures : List Failure := []

/-- An account with another behind it. -/
def Account.andThen (a b : Account ε) : Account ε where
  result := b.result
  units := a.units + b.units
  entries := a.entries + b.entries
  span := a.span + b.span
  failures := a.failures ++ b.failures

/-- The failure of a block, if an error leaves it. -/
def failed (failure : ε → Failure) : Except ε Unit → List Failure
  | .ok _ => []
  | .error e => [failure e]

/-- An account with the failure of the block around it. The error goes on. -/
def Account.inBlock (a : Account ε) (failure : ε → Failure) : Account ε :=
  { a with failures := a.failures ++ failed failure a.result }

/-- An account with what comes behind it unless an error leaves it. -/
def Account.onEnd (a next : Account ε) : Account ε :=
  match a.result with
  | .error _ => a
  | .ok _ => a.andThen next

/-- An account with what comes behind it where an error leaves it. -/
def Account.onError (a : Account ε) (handler : ε → Account ε) : Account ε :=
  match a.result with
  | .error e => a.andThen (handler e)
  | .ok _ => a

/-- What an activity comes to inside operations with some names, when some units have been entered
before it. -/
def Activity.account (reason : ε → String) : Activity ε → (names : List String) →
    (before : Nat) → Account ε
  | .idle, _, _ => {}
  | .count, _, _ => { entries := 1 }
  | .wait span, _, _ => { span }
  | .raise e, _, _ => { result := .error e }
  | .seq first next, names, before =>
    let a := first.account reason names before
    a.onEnd (next.account reason names (before + a.units))
  | .attempt body handler, names, before =>
    let a := body.account reason names before
    a.onError fun e => (handler e).account reason names (before + a.units)
  | .operation name body, names, before =>
    let a := body.account reason (names ++ [name]) before
    a.inBlock fun e => .operation (names ++ [name]) a.span (reason e)
  | .unit _ _ body, names, before =>
    let a := body.account reason names (before + 1)
    { a with units := a.units + 1 }.inBlock fun e =>
      .unit (before + (a.units + 1)) a.span (reason e)

variable {s t u : Session} {reason : ε → String} {a b : Account ε}
  {x : InSession OnMachine (Except ε Unit)}

/-- An action comes to what an account says. The blocks of the session are those before it. -/
def ComesTo (x : InSession OnMachine (Except ε Unit)) (s : Session) (a : Account ε) : Prop :=
  ∀ machine : Machine, ∃ records : List Record,
    runOn x s machine =
      (some (a.result, s.counted a.units a.entries),
        (machine.later a.span).emitAll records) ∧
    records.filter (fun r => r.level == .error) = a.failures.map Failure.record

/-- What an action does behind another one adds to the account of that. -/
theorem comesTo_andThen {f : Except ε Unit → InSession OnMachine (Except ε Unit)}
    (first : ComesTo x s a) (next : ComesTo (f a.result) (s.counted a.units a.entries) b) :
    ComesTo (x >>= f) s (a.andThen b) := by
  intro machine
  obtain ⟨records, begun, failed⟩ := first machine
  obtain ⟨more, ended, failed'⟩ := next ((machine.later a.span).emitAll records)
  refine ⟨records ++ more, ?_, ?_⟩
  · rw [runOn_bind begun, ended, counted_counted, ← Machine.emitAll_later, Machine.later_later,
      ← Machine.emitAll_append]
    rfl
  · rw [List.filter_append, failed, failed', Account.andThen, List.map_append]

theorem comesTo_pure {f : Except ε Unit → InSession OnMachine (Except ε Unit)}
    (first : ComesTo x s a) (next : f a.result = pure a.result) : ComesTo (x >>= f) s a := by
  intro machine
  obtain ⟨records, begun, failed⟩ := first machine
  refine ⟨records, ?_, failed⟩
  rw [runOn_bind begun, next]
  rfl

theorem comesTo_onEnd {y : InSession OnMachine (Except ε Unit)} (first : ComesTo x s a)
    (next : ComesTo y (s.counted a.units a.entries) b) :
    ComesTo (do
      match ← x with
      | .error e => return .error e
      | .ok () => y) s (a.onEnd b) := by
  unfold Account.onEnd
  cases result : a.result with
  | error e => exact comesTo_pure first (by rw [result])
  | ok _ =>
    refine comesTo_andThen first ?_
    rw [result]
    exact next

theorem comesTo_onError {handle : ε → InSession OnMachine (Except ε Unit)}
    {handler : ε → Account ε} (body : ComesTo x s a)
    (next : ∀ e, ComesTo (handle e) (s.counted a.units a.entries) (handler e)) :
    ComesTo (do
      match ← x with
      | .error e => handle e
      | .ok () => return .ok ()) s (a.onError handler) := by
  unfold Account.onError
  cases result : a.result with
  | ok _ => exact comesTo_pure body (by rw [result])
  | error e =>
    refine comesTo_andThen body ?_
    rw [result]
    exact next e

/-! ## Blocks -/

/-- The record with which a block is left, by its end or by an error. -/
def leaving (reason : ε → String) (t : Tracker) (now : Nat) (b : Block) (result : Except ε Unit) :
    Record :=
  match result with
  | .ok _ => ⟨.debug, Channel.generator, t.ended now b⟩
  | .error e => ⟨.error, Channel.generator, t.broken now (reason e) b⟩

/-- A block is its action, with a record in front and one behind it. -/
theorem runOn_block {enter : Tracker → Nat → Tracker × Remark} {b : Block}
    {machine machine' : Machine} {remark : Remark} {result : Except ε Unit}
    (entered : enter s.progress machine.clock = ((t.within b).progress, remark))
    (same : { s with progress := (t.within b).progress } = t.within b)
    (ran : runOn x (t.within b) (machine.emitAll [⟨remark.1, Channel.generator, remark.2⟩]) =
      (some (result, u.within b), machine')) :
    runOn (block enter reason x) s machine =
      (some (result, u),
        machine'.emitAll [leaving reason (u.within b).progress machine'.clock b result]) := by
  have begun : runOn (advance (t.within b).progress (some remark)) s machine =
      (some ((), t.within b), machine.emitAll [⟨remark.1, Channel.generator, remark.2⟩]) := by
    change (some ((), { s with progress := (t.within b).progress }), _) = _
    rw [same]
    rfl
  refine (runOn_bind rfl).trans ((runOn_bind rfl).trans ?_)
  change runOn (do
    advance (enter s.progress machine.clock).1 (some (enter s.progress machine.clock).2)
    _) s machine = _
  rw [entered]
  refine (runOn_bind begun).trans ((runOn_bind ran).trans ?_)
  cases result <;> rfl

theorem filter_leaving {t : Tracker} {now : Nat} {b : Block} {failure : ε → Failure}
    (told : ∀ e, leaving reason t now b (.error e) = (failure e).record)
    (result : Except ε Unit) :
    [leaving reason t now b result].filter (fun r => r.level == .error) =
      (failed failure result).map Failure.record := by
  cases result with
  | ok _ => rfl
  | error e =>
    rw [failed, List.map_singleton, ← told e]
    rfl

theorem clock_inside (machine : Machine) (start : Record) (span : Nat) (records : List Record) :
    (((machine.emitAll [start]).later span).emitAll records).clock = machine.clock + span := by
  rw [Machine.clock_emitAll]
  change (machine.emitAll [start]).clock + span = _
  rw [Machine.clock_emitAll]

theorem emitAll_around (machine : Machine) (start last : Record) (span : Nat)
    (records : List Record) :
    (((machine.emitAll [start]).later span).emitAll records).emitAll [last] =
      (machine.later span).emitAll (start :: (records ++ [last])) := by
  rw [← Machine.emitAll_later, ← Machine.emitAll_append, ← Machine.emitAll_append]
  rfl

/-- A block adds its failure to the account of its action, where an error leaves it. -/
theorem comesTo_block {enter : Tracker → Nat → Tracker × Remark} {b : Nat → Block}
    {text : Nat → String} {failure : ε → Failure} (units : Nat)
    (entered : ∀ now, enter s.progress now =
      (((s.counted units 0).within (b now)).progress, (.debug, text now)))
    (action : ∀ now, ComesTo x ((s.counted units 0).within (b now)) a)
    (told : ∀ now e, leaving reason
      ((s.counted (a.units + units) a.entries).within (b now)).progress (now + a.span) (b now)
        (.error e) = (failure e).record) :
    ComesTo (block enter reason x) s ({ a with units := a.units + units }.inBlock failure) := by
  intro machine
  let start : Record := ⟨.debug, Channel.generator, text machine.clock⟩
  obtain ⟨records, ran, told'⟩ := action machine.clock (machine.emitAll [start])
  have sum : (s.counted units 0).counted a.units a.entries =
      s.counted (a.units + units) a.entries := by
    rw [counted_counted, Nat.add_comm, Nat.zero_add]
  have inside : ((s.counted units 0).within (b machine.clock)).counted a.units a.entries =
      (s.counted (a.units + units) a.entries).within (b machine.clock) :=
    congrArg (within · (b machine.clock)) sum
  rw [inside] at ran
  let last := leaving reason ((s.counted (a.units + units) a.entries).within
    (b machine.clock)).progress (machine.clock + a.span) (b machine.clock) a.result
  have done : runOn (block enter reason x) s machine =
      (some (a.result, s.counted (a.units + units) a.entries),
        (machine.later a.span).emitAll (start :: (records ++ [last]))) := by
    rw [runOn_block (entered machine.clock) rfl ran, clock_inside, emitAll_around]
  refine ⟨start :: (records ++ [last]), done, ?_⟩
  rw [Account.inBlock, List.map_append, ← told', ← filter_leaving (told machine.clock) a.result,
    ← List.filter_append]
  rfl

theorem context_of_operations {t : Tracker} {names : List String} {name : String}
    (opened : t.operations = names ++ [name]) :
    t.context = " -> ".intercalate (names ++ [name]) := by
  unfold Tracker.context
  rw [opened]
  cases names <;> rfl

theorem operations_within (s : Session) (name : String) (now : Nat) :
    (s.within (.operation name now)).progress.operations = s.progress.operations ++ [name] :=
  List.reverse_cons

/-- An operation that an error leaves names the operations that are open, itself the last. -/
theorem leaving_operation (s : Session) (name : String) (now span : Nat) (e : ε) :
    leaving reason (s.within (.operation name now)).progress (now + span) (.operation name now)
        (.error e) =
      (Failure.operation (s.progress.operations ++ [name]) span (reason e)).record := by
  have context := context_of_operations (operations_within s name now)
  have elapsed : now + span - now = span := Nat.add_sub_cancel_left now span
  unfold leaving Tracker.broken Failure.record
  dsimp only
  rw [context, elapsed]

theorem leaving_unit (s : Session) (entries now span : Nat) (e : ε) :
    leaving reason (s.within (.unit now entries)).progress (now + span) (.unit now entries)
        (.error e) = (Failure.unit s.progress.units span (reason e)).record := by
  have elapsed : now + span - now = span := Nat.add_sub_cancel_left now span
  have number : (s.within (.unit now entries)).progress.units = s.progress.units := rfl
  unfold leaving Tracker.broken Failure.record
  dsimp only
  rw [number, elapsed]

theorem comesTo_operation {name : String}
    (body : ∀ now, ComesTo x (s.within (.operation name now)) a) :
    ComesTo (operation name reason x) s
      (a.inBlock fun e => .operation (s.progress.operations ++ [name]) a.span (reason e)) :=
  comesTo_block 0 (fun _ => rfl) body fun now e =>
    leaving_operation (s.counted a.units a.entries) name now a.span e

theorem comesTo_unit {offset length : Int}
    (body : ∀ now, ComesTo x ((s.counted 1 0).within (.unit now s.progress.entries)) a) :
    ComesTo (block (fun t now => t.enterUnit offset length now) reason x) s
      ({ a with units := a.units + 1 }.inBlock fun e =>
        .unit (s.progress.units + (a.units + 1)) a.span (reason e)) :=
  comesTo_block 1 (fun _ => rfl) body fun now e =>
    leaving_unit (s.counted (a.units + 1) a.entries) s.progress.entries now a.span e

/-- Every activity comes to its account, one block of the session inside the other. -/
theorem run_comesTo (reason : ε → String) (p : Activity ε) (s : Session) :
    ComesTo (p.run reason) s (p.account reason s.progress.operations s.progress.units) := by
  induction p generalizing s with
  | idle => exact fun machine => ⟨[], rfl, rfl⟩
  | count => exact fun machine => ⟨[], rfl, rfl⟩
  | wait span => exact fun machine => ⟨[], rfl, rfl⟩
  | raise e => exact fun machine => ⟨[], rfl, rfl⟩
  | seq first next first_ih next_ih => exact comesTo_onEnd (first_ih s) (next_ih _)
  | attempt body handler body_ih handler_ih =>
    unfold Activity.run Activity.account
    exact comesTo_onError (body_ih s) fun e => handler_ih e _
  | operation name body ih =>
    refine comesTo_operation fun now => ?_
    have inside := ih (s.within (.operation name now))
    rwa [operations_within] at inside
  | unit offset length body ih =>
    exact comesTo_unit fun now => ih ((s.counted 1 0).within (.unit now s.progress.entries))

/-- Whatever an activity does, and whether it ends or an error leaves it, the blocks of the session
are afterwards those before it. The result, what the units and the entries have grown by, the time
and the failures are those of its account. -/
theorem run_balanced (reason : ε → String) (p : Activity ε) (s : Session) (machine : Machine) :
    let told := p.account reason s.progress.operations s.progress.units
    ∃ (after : Session) (records : List Record),
      runOn (p.run reason) s machine =
        (some (told.result, after), (machine.later told.span).emitAll records) ∧
      after.progress.blocks = s.progress.blocks ∧
      after.progress.operations = s.progress.operations ∧
      after.progress.units = s.progress.units + told.units ∧
      after.progress.entries = s.progress.entries + told.entries ∧
      records.filter (fun r => r.level == .error) = told.failures.map Failure.record := by
  intro told
  obtain ⟨records, ran, failed⟩ := run_comesTo reason p s machine
  exact ⟨s.counted told.units told.entries, records, ran, rfl, rfl, rfl, rfl, failed⟩

/-- An error that is caught and raised again is told once by each block around it. -/
example :
    (Activity.account id
      (.operation "scan" (.attempt (.operation "read" (.unit 0 8 (.raise "bad"))) .raise))
      ["run"] 4).failures =
      [.unit 5 0 "bad", .operation ["run", "scan", "read"] 0 "bad",
        .operation ["run", "scan"] 0 "bad"] := by
  rfl

end Session

end GlobalMap
