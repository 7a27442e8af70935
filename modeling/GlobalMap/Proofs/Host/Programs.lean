import GlobalMap.Host.Machine

/-! Programs on a machine held in memory, step by step: those that only ask leave the machine as it
is, and those that may fail go on from one result to the next. -/
namespace GlobalMap.OnMachine

/-- A program that leaves every machine as it is. -/
def Asks {α : Type} (x : OnMachine α) : Prop :=
  ∀ m : Machine, (x m).2 = m

section Rules

variable {α β : Type} {x : OnMachine α} {f : α → OnMachine β}

theorem asks_pure (a : α) : Asks (pure a : OnMachine α) :=
  fun _ => rfl

theorem asks_ask (answer : Machine → α) : Asks (ask answer) :=
  fun _ => rfl

theorem asks_bind (first : Asks x) (next : ∀ a, Asks (f a)) : Asks (x >>= f) := by
  intro m
  change (f (x m).1 (x m).2).2 = m
  rw [first m]
  exact next _ m

theorem run_bind {m m' : Machine} {a : α} (first : x m = (a, m')) : (x >>= f) m = f a m' := by
  change f (x m).1 (x m).2 = _
  rw [first]

/-- A program that only asks ends in its answer, on the same machine. -/
theorem Asks.run_eq {m : Machine} {a : α} (asks : Asks x) (answer : (x m).1 = a) :
    x m = (a, m) :=
  Prod.ext answer (asks m)

end Rules

section Failing

variable {α β ε : Type} {m m' : Machine} {a : α} {x : OnMachine (Except ε α)}
  {f : α → ExceptT ε OnMachine β}

theorem run_try (first : x m = (.ok a, m')) : (ExceptT.mk x >>= f).run m = (f a).run m' := by
  change ExceptT.bindCont f (x m).1 (x m).2 = _
  rw [first]
  rfl

theorem run_try_error {e : ε} (first : x m = (.error e, m')) :
    (ExceptT.mk x >>= f).run m = (.error e, m') := by
  change ExceptT.bindCont f (x m).1 (x m).2 = _
  rw [first]
  rfl

end Failing

/-! A program that keeps a state of its own and may never end does on the machine what it does
without. -/

section Lifting

variable {σ α β ε : Type}

/-- A program as a part of one that keeps a state and may never end. It ends itself. -/
def lift (x : OnMachine α) : StateT σ (OptionT OnMachine) α :=
  StateT.lift (OptionT.lift x)

theorem bind_lift {x : OnMachine α} {f : α → OnMachine β}
    {g : α → StateT σ (OptionT OnMachine) β} (next : ∀ a, g a = lift (f a)) :
    lift x >>= g = lift (x >>= f) := by
  rw [funext next]
  rfl

theorem try_lift {x : OnMachine (Except ε α)} {f : α → ExceptT ε OnMachine β}
    {g : α → ExceptT ε (StateT σ (OptionT OnMachine)) β}
    (next : ∀ a, (g a).run = lift (f a).run) :
    (ExceptT.mk (lift x) >>= g).run = lift (ExceptT.mk x >>= f).run := by
  change lift x >>= ExceptT.bindCont g = lift (x >>= ExceptT.bindCont f)
  refine bind_lift fun result => ?_
  cases result with
  | ok a => exact next a
  | error e => rfl

end Lifting

section Requests

variable {m m' : Machine} (change : Machine → Except Refusal Machine)

theorem request_ok (changed : change m = .ok m') : request change m = (.ok (), m') := by
  rw [request, changed]

theorem request_error {refusal : Refusal} (refused : change m = .error refusal) :
    request change m = (.error refusal, m) := by
  rw [request, refused]

end Requests

section Temporary

variable {m m' : Machine} {directory temporary : Path} {before after : String} {refusal : Refusal}

theorem createTemporary_ok (created : m.createTemporary directory before after =
    .ok (temporary, m')) :
    (Host.createTemporary directory before after : OnMachine _) m = (.ok temporary, m') := by
  simp only [Host.createTemporary, created]

theorem createTemporary_error (refused : m.createTemporary directory before after =
    .error refusal) :
    (Host.createTemporary directory before after : OnMachine _) m = (.error refusal, m) := by
  simp only [Host.createTemporary, refused]

theorem writeTemporary_ok {contents : Bytes} (written : m.writeTemporary temporary contents =
    .ok m') : (Host.writeTemporary temporary contents : OnMachine _) m = (.ok (), m') := by
  simp only [Host.writeTemporary, written]

theorem writeTemporary_error {contents : Bytes} (refused : m.writeTemporary temporary contents =
    .error refusal) : (Host.writeTemporary temporary contents : OnMachine _) m =
      (.error refusal, m.breakOff temporary contents) := by
  simp only [Host.writeTemporary, refused]

end Temporary

end GlobalMap.OnMachine
