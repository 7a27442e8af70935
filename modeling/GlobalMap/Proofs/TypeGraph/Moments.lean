import GlobalMap.Proofs.TypeGraph.Cycles
import Mathlib.Data.List.Nodup

/-! Expanding step by step. A call that expands a structure puts it on the path, goes through its
members, waits for the trees of those that are not on the path, takes the structure off again and
may keep its tree; all calls share one path and one set of kept trees. The steps of a call lead
where the recursion ends, and on the way there the path repeats nothing and all that is kept is
plain. Hence this is so at every moment that can be reached by questions. -/
namespace GlobalMap.Flattener

variable {structures : OffsetMap Structure}

/-! ## Moments -/

/-- A structure whose members are being gone through: how deep it stands on the path, its tree so
far, and the shallowest place of the path at which that was cut. -/
structure Frame where
  identity : Int
  depth : Nat
  tree : Expansion
  cut : Option Nat

/-- A frame with one more member that stays as it is. -/
def Frame.add (frame : Frame) (m : Member) : Frame :=
  { frame with tree := { frame.tree with members := frame.tree.members ++ [m.bare] } }

/-- A frame with one more member that was cut at a place of the path. -/
def Frame.addCut (frame : Frame) (m : Member) (depth : Nat) : Frame :=
  { frame.add m with cut := shallowest frame.cut (some depth) }

/-- A frame with one more member and the tree below it. -/
def Frame.addTree (frame : Frame) (m : Member) (tree : Expansion) (cut : Option Nat) : Frame where
  identity := frame.identity
  depth := frame.depth
  tree := {
    members := frame.tree.members ++ [{ m with fields := tree.members }]
    contained := frame.tree.contained.insertMany tree.contained.toList }
  cut := shallowest frame.cut cut

/-- What a flattener is about to do. -/
inductive Task where
  /-- No call is under way. -/
  | idle
  /-- Begins to expand a structure. -/
  | enter (identity : Int)
  /-- Goes on with the members of a structure that is on the path. -/
  | members (frame : Frame) (rest : List Member)
  /-- Keeps the tree of a structure that has been taken off the path, or does not. -/
  | leave (frame : Frame)
  /-- Hands the tree of a structure to who waits for it. -/
  | hand (tree : Expansion) (cut : Option Nat)

/-- A frame that waits for the tree below a member. -/
structure Waiting where
  frame : Frame
  member : Member
  rest : List Member

/-- A flattener at a moment, also in the middle of a call. -/
structure Moment where
  task : Task := .idle
  /-- The calls that are under way above the task, the innermost first. -/
  waiting : List Waiting := []
  /-- The structures that are being expanded, the outermost first. -/
  path : List Int := []
  known : Flattener := {}
  /-- The structures that are still to be expanded for a question. -/
  queue : List Int := []

/-- The next moment, unless there is nothing left to do. -/
def Moment.step (structures : OffsetMap Structure) (m : Moment) : Option Moment :=
  match m.task with
  | .idle =>
    match m.queue with
    | [] => none
    | identity :: rest => some { m with task := .enter identity, queue := rest }
  | .enter identity =>
    match m.known.usable? m.path identity with
    | some tree => some { m with task := .hand tree none }
    | none =>
      match structures[identity]? with
      | none => some { m with task := .hand ⟨[], ∅⟩ none }
      | some s =>
        let frame : Frame := ⟨identity, m.path.length, ⟨[], {identity}⟩, none⟩
        some { m with task := .members frame s.members, path := m.path ++ [identity] }
  | .members frame [] => some { m with task := .leave frame, path := m.path.dropLast }
  | .members frame (member :: rest) =>
    match named? structures member.typeRef with
    | none => some { m with task := .members (frame.add member) rest }
    | some child =>
      match m.path.idxOf? child with
      | some depth => some { m with
          task := .members (frame.addCut member depth) rest
          known := m.known.recordCut ⟨child, m.path⟩ member.name }
      | none => some { m with
          task := .enter child
          waiting := ⟨frame, member, rest⟩ :: m.waiting }
  | .leave frame => some { m with
      task := .hand frame.tree frame.cut
      known := m.known.keep frame.depth frame.identity frame.tree frame.cut }
  | .hand tree cut =>
    match m.waiting with
    | [] => some { m with task := .idle }
    | above :: others => some { m with
        task := .members (above.frame.addTree above.member tree cut) above.rest
        waiting := others }

/-- A moment that a new flattener comes to, and what it has been asked by then. -/
inductive Reachable (structures : OffsetMap Structure) : List Question → Moment → Prop where
  | new : Reachable structures [] {}
  | asks {asked : List Question} {m : Moment} (before : Reachable structures asked m)
    (idle : m.task = .idle) (done : m.queue = []) (question : Question) :
    Reachable structures (asked ++ [question]) { m with queue := question.roots structures }
  | goesOn {asked : List Question} {m next : Moment} (before : Reachable structures asked m)
    (step : m.step structures = some next) : Reachable structures asked next

/-! ## Order -/

/-- Every kept tree is plain, and its root is one of the structures in it. -/
def Memo (structures : OffsetMap Structure) (f : Flattener) : Prop :=
  ∀ identity tree, f.kept[identity]? = some tree →
    Plain structures identity tree ∧ identity ∈ tree.contained

/-- What is true at every moment. -/
structure Orderly (structures : OffsetMap Structure) (m : Moment) : Prop where
  once : m.path.Nodup
  stored : ∀ x ∈ m.path, x ∈ structures
  memo : Memo structures m.known
  atRest : m.task = .idle → m.path = [] ∧ m.waiting = []
  fresh : ∀ identity, m.task = .enter identity → identity ∉ m.path

/-- One moment leads to another in some steps, and every moment from the first to the last is
orderly. -/
inductive Leads (structures : OffsetMap Structure) : Moment → Moment → Prop where
  | here {m : Moment} (orderly : Orderly structures m) : Leads structures m m
  | step {m next last : Moment} (orderly : Orderly structures m)
    (step : m.step structures = some next) (behind : Leads structures next last) :
    Leads structures m last

theorem Leads.first {m last : Moment} (leads : Leads structures m last) : Orderly structures m := by
  cases leads with
  | here orderly => exact orderly
  | step orderly => exact orderly

theorem Leads.last {m last : Moment} (leads : Leads structures m last) :
    Orderly structures last := by
  induction leads with
  | here orderly => exact orderly
  | step _ _ _ ih => exact ih

theorem Leads.trans {m next last : Moment} (first : Leads structures m next)
    (behind : Leads structures next last) : Leads structures m last := by
  induction first with
  | here _ => exact behind
  | step orderly step _ ih => exact .step orderly step (ih behind)

theorem Memo.sound {f : Flattener} (memo : Memo structures f) : Sound structures f :=
  fun identity tree kept => (memo identity tree kept).1

theorem Memo.recordCut {f : Flattener} (memo : Memo structures f) (cycle : Cycle)
    (member : String) : Memo structures (f.recordCut cycle member) :=
  memo

/-- A tree that holds its root is kept without harm where it is faithful. -/
theorem Memo.keep {path : List Int} {identity : Int} {o : Outcome} (memo : Memo structures o.after)
    (fresh : identity ∉ path) (faithful : Faithful structures path identity o)
    (inside : identity ∈ o.tree.contained) :
    Memo structures (o.after.keep path.length identity o.tree o.cut) := by
  intro x tree kept
  refine ⟨keep_sound fresh faithful x tree kept, ?_⟩
  unfold Flattener.keep at kept
  split at kept
  · rw [Std.ExtTreeMap.getElem?_insert] at kept
    split at kept
    · rename_i same
      cases kept
      exact Std.compare_eq_iff_eq.mp same ▸ inside
    · exact (memo x tree kept).2
  · exact (memo x tree kept).2

/-! ## What a frame takes up -/

/-- A frame that has taken up what expanding further members gives. -/
def Frame.absorb (frame : Frame) (o : Outcome) : Frame where
  identity := frame.identity
  depth := frame.depth
  tree := {
    members := frame.tree.members ++ o.tree.members
    contained := frame.tree.contained.insertMany o.tree.contained.toList }
  cut := shallowest frame.cut o.cut

theorem shallowest_none (a : Option Nat) : shallowest a none = a := by
  cases a <;> rfl

theorem shallowest_assoc (a b c : Option Nat) :
    shallowest (shallowest a b) c = shallowest a (shallowest b c) := by
  cases a with
  | none => rfl
  | some a =>
    cases b with
    | none => rw [shallowest_none]; rfl
    | some b =>
      cases c with
      | none => rfl
      | some c => exact congrArg some (Nat.min_assoc a b c)

theorem insertMany_insertMany (a b c : Std.ExtTreeSet Int) :
    (a.insertMany b.toList).insertMany c.toList =
      a.insertMany (b.insertMany c.toList).toList := by
  refine Std.ExtTreeSet.ext_mem fun x => ?_
  simp only [Std.ExtTreeSet.mem_insertMany_list, List.contains_iff_mem,
    Std.ExtTreeSet.mem_toList, or_assoc]

theorem Frame.absorb_nothing (frame : Frame) (f : Flattener) :
    frame.absorb ⟨⟨[], ∅⟩, none, f⟩ = frame := by
  have nothing : frame.tree.contained.insertMany (∅ : Std.ExtTreeSet Int).toList =
      frame.tree.contained := by
    refine Std.ExtTreeSet.ext_mem fun x => ?_
    simp
  unfold Frame.absorb
  rw [shallowest_none, nothing, List.append_nil]

theorem Frame.absorb_add (frame : Frame) (m : Member) (others : Outcome) :
    (frame.add m).absorb others = frame.absorb
      { others with tree := { others.tree with members := m.bare :: others.tree.members } } := by
  unfold Frame.absorb Frame.add
  dsimp only
  rw [List.append_assoc, List.singleton_append]

theorem Frame.absorb_addCut (frame : Frame) (m : Member) (depth : Nat) (others : Outcome) :
    (frame.addCut m depth).absorb others = frame.absorb { others with
      tree := { others.tree with members := m.bare :: others.tree.members }
      cut := shallowest (some depth) others.cut } := by
  unfold Frame.absorb Frame.addCut Frame.add
  dsimp only
  rw [List.append_assoc, List.singleton_append, shallowest_assoc]

theorem Frame.absorb_addTree (frame : Frame) (m : Member) (below others : Outcome) :
    (frame.addTree m below.tree below.cut).absorb others = frame.absorb {
      tree := {
        members := { m with fields := below.tree.members } :: others.tree.members
        contained := below.tree.contained.insertMany others.tree.contained.toList }
      cut := shallowest below.cut others.cut
      after := others.after } := by
  unfold Frame.absorb Frame.addTree
  dsimp only
  rw [List.append_assoc, List.singleton_append, shallowest_assoc, insertMany_insertMany]

/-! ## Steps and recursion -/

/-- The moment at which the expansion of a structure begins. -/
def entering (waiting : List Waiting) (path queue : List Int) (f : Flattener) (identity : Int) :
    Moment :=
  ⟨.enter identity, waiting, path, f, queue⟩

/-- The moment at which what an expansion has given is handed over. -/
def handing (waiting : List Waiting) (path queue : List Int) (o : Outcome) : Moment :=
  ⟨.hand o.tree o.cut, waiting, path, o.after, queue⟩

/-- A moment between the members of the structure at the end of the path. -/
def among (waiting : List Waiting) (path queue : List Int) (f : Flattener) (frame : Frame)
    (rest : List Member) : Moment :=
  ⟨.members frame rest, waiting, path, f, queue⟩

section Calls

variable {waiting : List Waiting} {path queue : List Int} {f : Flattener} {identity : Int}
  {frame : Frame} {m : Member} {rest listed : List Member}

theorem orderly_among (once : path.Nodup) (stored : ∀ x ∈ path, x ∈ structures)
    (memo : Memo structures f) : Orderly structures (among waiting path queue f frame rest) :=
  ⟨once, stored, memo, fun idle => (by cases idle), fun _ begins => (by cases begins)⟩

theorem orderly_entering (once : path.Nodup) (stored : ∀ x ∈ path, x ∈ structures)
    (memo : Memo structures f) (fresh : identity ∉ path) :
    Orderly structures (entering waiting path queue f identity) :=
  ⟨once, stored, memo, fun idle => (by cases idle),
    fun _ begins => (by cases begins; exact fresh)⟩

theorem orderly_handing {o : Outcome} (once : path.Nodup) (stored : ∀ x ∈ path, x ∈ structures)
    (memo : Memo structures o.after) : Orderly structures (handing waiting path queue o) :=
  ⟨once, stored, memo, fun idle => (by cases idle), fun _ begins => (by cases begins)⟩

/-- Going through members leads to a frame that has taken up what the recursion gives for them. -/
theorem leads_members (once : path.Nodup) (stored : ∀ x ∈ path, x ∈ structures)
    (each : ∀ (child : Int) (f : Flattener) (waiting : List Waiting), child ∉ path →
      Memo structures f → Leads structures (entering waiting path queue f child)
        (handing waiting path queue (f.expand structures path child)))
    (listed : List Member) (frame : Frame) (f : Flattener) (memo : Memo structures f) :
    Leads structures (among waiting path queue f frame listed)
      (among waiting path queue (f.expandMembers structures path listed).after
        (frame.absorb (f.expandMembers structures path listed)) []) := by
  induction listed generalizing frame f with
  | nil =>
    rw [expandMembers, Frame.absorb_nothing]
    exact .here (orderly_among once stored memo)
  | cons m rest ih =>
    have here : Orderly structures (among waiting path queue f frame (m :: rest)) :=
      orderly_among once stored memo
    rw [expandMembers]
    cases names : named? structures m.typeRef with
    | none =>
      rw [← Frame.absorb_add]
      refine .step here ?_ (ih (frame.add m) f memo)
      simp only [Moment.step, among, names]
    | some child =>
      cases found : path.idxOf? child with
      | some depth =>
        simp only [found]
        rw [← Frame.absorb_addCut]
        refine .step here ?_ (ih (frame.addCut m depth) _ (memo.recordCut ⟨child, path⟩ m.name))
        simp only [Moment.step, among, names, found]
      | none =>
        simp only [found]
        have fresh : child ∉ path := List.idxOf?_eq_none_iff.mp found
        have below := each child f (⟨frame, m, rest⟩ :: waiting) fresh memo
        rw [← Frame.absorb_addTree]
        have resumes : Leads structures
            (handing (⟨frame, m, rest⟩ :: waiting) path queue (f.expand structures path child)) _ :=
          .step below.last rfl (ih _ _ below.last.memo)
        refine .step here ?_ (below.trans resumes)
        simp only [Moment.step, among, entering, names, found]

/-- The frame that a structure begins with takes up the tree of its members, with the structure in
it. -/
theorem absorb_begun (identity : Int) (depth : Nat) (o : Outcome) :
    (Frame.mk identity depth ⟨[], {identity}⟩ none).absorb o =
      ⟨identity, depth, { o.tree with contained := o.tree.contained.insert identity }, o.cut⟩ := by
  have inside : ({identity} : Std.ExtTreeSet Int).insertMany o.tree.contained.toList =
      o.tree.contained.insert identity := by
    refine Std.ExtTreeSet.ext_mem fun x => ?_
    simp [Std.ExtTreeSet.singleton_eq_insert]
  unfold Frame.absorb
  dsimp only
  rw [inside]
  rfl

/-- A structure with what its members have come to, which may be kept. -/
def gathered (path : List Int) (identity : Int) (below : Outcome) : Outcome :=
  let tree : Expansion := { below.tree with contained := below.tree.contained.insert identity }
  { tree, cut := below.cut, after := below.after.keep path.length identity tree below.cut }

theorem expand_of_usable {tree : Expansion} (usable : f.usable? path identity = some tree) :
    f.expand structures path identity = ⟨tree, none, f⟩ := by
  rw [expand, usable]

theorem expand_of_missing (usable : f.usable? path identity = none)
    (missing : structures[identity]? = none) :
    f.expand structures path identity = ⟨⟨[], ∅⟩, none, f⟩ := by
  rw [expand]
  simp only [usable]
  split
  next => rfl
  next held => rw [missing] at held; cases held

theorem expand_of_held {s : Structure} (usable : f.usable? path identity = none)
    (held : structures[identity]? = some s) (fresh : identity ∉ path) :
    f.expand structures path identity =
      gathered path identity (f.expandMembers structures (path ++ [identity]) s.members) := by
  rw [expand]
  simp only [usable]
  split
  next missing => rw [missing] at held; cases held
  next held' =>
    cases held.symm.trans held'
    rw [dif_neg fresh]
    rfl

theorem memo_gathered {s : Structure} (stored : ∀ x ∈ path, x ∈ structures)
    (held : structures[identity]? = some s) (fresh : identity ∉ path) (memo : Memo structures f)
    (after : Memo structures
      (f.expandMembers structures (path ++ [identity]) s.members).after) :
    Memo structures
      (gathered path identity
        (f.expandMembers structures (path ++ [identity]) s.members)).after := by
  have stored' : ∀ x ∈ path ++ [identity], x ∈ structures :=
    List.forall_mem_append.mpr
      ⟨stored, List.forall_mem_singleton.mpr (OffsetMap.mem_of_lookup held)⟩
  have members := expandMembers_faithful s.members f memo.sound fun child f fresh sound =>
    expand_faithful stored' fresh sound
  have faithful := faithful_of_members fresh held members
  have inside : identity ∈ (gathered path identity
      (f.expandMembers structures (path ++ [identity]) s.members)).tree.contained :=
    Std.ExtTreeSet.mem_insert_self ..
  refine Memo.keep ?_ fresh faithful inside
  exact after

theorem orderly_leaving (once : path.Nodup) (stored : ∀ x ∈ path, x ∈ structures)
    (memo : Memo structures f) : Orderly structures ⟨.leave frame, waiting, path, f, queue⟩ :=
  ⟨once, stored, memo, fun idle => (by cases idle), fun _ begins => (by cases begins)⟩

/-- Where the members of a structure have been gone through, it leaves the path and hands over its
tree. -/
theorem leads_gathered {below : Outcome} (once : (path ++ [identity]).Nodup)
    (stored : ∀ x ∈ path ++ [identity], x ∈ structures) (memo : Memo structures below.after)
    (after : Memo structures (gathered path identity below).after) :
    Leads structures
      (among waiting (path ++ [identity]) queue below.after
        ((Frame.mk identity path.length ⟨[], {identity}⟩ none).absorb below) [])
      (handing waiting path queue (gathered path identity below)) := by
  have once' : path.Nodup := once.sublist (List.sublist_append_left path [identity])
  have stored' : ∀ x ∈ path, x ∈ structures := fun x above =>
    stored x (List.mem_append_left _ above)
  have leaves : (among waiting (path ++ [identity]) queue below.after
      ((Frame.mk identity path.length ⟨[], {identity}⟩ none).absorb below) []).step structures =
      some ⟨.leave ⟨identity, path.length, (gathered path identity below).tree, below.cut⟩,
        waiting, path, below.after, queue⟩ := by
    rw [absorb_begun]
    simp only [Moment.step, among, List.dropLast_concat]
    rfl
  exact .step (orderly_among once stored memo) leaves
    (.step (orderly_leaving once' stored' memo) rfl (.here (orderly_handing once' stored' after)))

end Calls

/-- Expanding a structure leads to what the recursion gives. -/
theorem leads_expand {waiting : List Waiting} {path queue : List Int} {f : Flattener}
    {identity : Int} (once : path.Nodup) (stored : ∀ x ∈ path, x ∈ structures)
    (fresh : identity ∉ path) (memo : Memo structures f) :
    Leads structures (entering waiting path queue f identity)
      (handing waiting path queue (f.expand structures path identity)) := by
  have here : Orderly structures (entering waiting path queue f identity) :=
    orderly_entering once stored memo fresh
  cases usable : f.usable? path identity with
  | some tree =>
    rw [expand_of_usable usable]
    refine .step here ?_ (.here (orderly_handing once stored memo))
    simp only [Moment.step, entering, usable]
    rfl
  | none =>
    cases held : structures[identity]? with
    | none =>
      rw [expand_of_missing usable held]
      refine .step here ?_ (.here (orderly_handing once stored memo))
      simp only [Moment.step, entering, usable, held]
      rfl
    | some s =>
      have inside := OffsetMap.mem_of_lookup held
      have shorter := OffsetMap.unvisited_append_lt inside fresh
      have once' : (path ++ [identity]).Nodup := by
        rw [← List.concat_eq_append]
        exact List.Nodup.concat fresh once
      have stored' : ∀ x ∈ path ++ [identity], x ∈ structures :=
        List.forall_mem_append.mpr ⟨stored, List.forall_mem_singleton.mpr inside⟩
      have each (child : Int) (f : Flattener) (waiting : List Waiting)
          (fresh : child ∉ path ++ [identity]) (memo : Memo structures f) :
          Leads structures (entering waiting (path ++ [identity]) queue f child)
            (handing waiting (path ++ [identity]) queue
              (f.expand structures (path ++ [identity]) child)) :=
        leads_expand once' stored' fresh memo
      let begun : Frame := ⟨identity, path.length, ⟨[], {identity}⟩, none⟩
      have through : Leads structures
          (among waiting (path ++ [identity]) queue f begun s.members) _ :=
        leads_members once' stored' each s.members begun f memo
      have memo' := through.last.memo
      rw [expand_of_held usable held fresh]
      refine .step here ?_ (through.trans (leads_gathered once' stored' memo'
        (memo_gathered stored held fresh memo memo')))
      simp only [Moment.step, entering, usable, held]
      rfl
termination_by structures.unvisited path
decreasing_by exact shorter

/-! ## Questions -/

/-- The moment between calls. -/
def resting (f : Flattener) (queue : List Int) : Moment :=
  { known := f, queue }

theorem orderly_resting {f : Flattener} (memo : Memo structures f) (queue : List Int) :
    Orderly structures (resting f queue) :=
  ⟨List.nodup_nil, by simp [resting], memo, fun _ => ⟨rfl, rfl⟩, fun _ begins => (by cases begins)⟩

/-- What has been expanded after some structures have been, one after the other. -/
def afterAll (structures : OffsetMap Structure) (f : Flattener) (roots : List Int) : Flattener :=
  roots.foldl (fun f identity => (f.expand structures [] identity).after) f

/-- Every queue of structures is worked off. -/
theorem leads_queue (roots : List Int) (f : Flattener) (memo : Memo structures f) :
    Leads structures (resting f roots) (resting (afterAll structures f roots) []) := by
  induction roots generalizing f with
  | nil => exact .here (orderly_resting memo [])
  | cons identity rest ih =>
    have through : Leads structures (entering [] [] rest f identity)
        (handing [] [] rest (f.expand structures [] identity)) :=
      leads_expand List.nodup_nil (by simp) (by simp) memo
    have memo' := through.last.memo
    have returns : Leads structures (handing [] [] rest (f.expand structures [] identity))
        (resting (afterAll structures f (identity :: rest)) []) :=
      .step through.last rfl (ih _ memo')
    exact .step (orderly_resting memo _) rfl (through.trans returns)

theorem flattenRows_after (rows : List (Int × Structure)) (f : Flattener) :
    (f.flattenRows structures rows).2 =
      afterAll structures f (rows.map fun row => row.2.identity) := by
  induction rows generalizing f with
  | nil => rfl
  | cons row rest ih => exact ih _

/-- A question is answered by expanding its structures. -/
theorem ask_after (f : Flattener) (question : Question) :
    (f.ask structures question).2 = afterAll structures f (question.roots structures) := by
  cases question with
  | members offset =>
    cases held : structures[offset]? with
    | none => simp only [ask, membersAt?, held, Option.map_none, Question.roots]; rfl
    | some s => simp only [ask, membersAt?, held, Option.map_some, Question.roots]; rfl
  | all => exact flattenRows_after structures.toList f

theorem askAll_concat (f : Flattener) (asked : List Question) (question : Question) :
    (f.askAll structures (asked ++ [question])).2 =
      ((f.askAll structures asked).2.ask structures question).2 := by
  induction asked generalizing f with
  | nil => rfl
  | cons first rest ih => exact ih _

/-- Whatever moment has been reached, the steps from there lead to what the recursion comes to. -/
theorem Reachable.leads {asked : List Question} {m : Moment}
    (reachable : Reachable structures asked m) :
    Leads structures m (resting (askAll structures {} asked).2 []) := by
  induction reachable with
  | new => exact .here (orderly_resting (fun _ _ kept => by cases kept) [])
  | @asks asked m before idle done question ih =>
    have stands : m = resting (askAll structures {} asked).2 [] := by
      cases ih with
      | here => rfl
      | step _ step => simp [Moment.step, idle, done] at step
    have memo := ih.last.memo
    rw [stands, askAll_concat, ask_after]
    exact leads_queue _ _ memo
  | goesOn before step ih =>
    cases ih with
    | here => cases step
    | step _ step' behind =>
      cases step.symm.trans step'
      exact behind

/-! ## The memo -/

/-- What an expansion below a path returns: the plain tree, the structures expanded in it, and a
depth that is one of the path if and only if the tree was cut at a structure of the path, and then
the least place at which it was. -/
structure Returns (structures : OffsetMap Structure) (path : List Int) (identity : Int)
    (tree : Expansion) (cut : Option Nat) : Prop where
  members : tree.members = GlobalMap.expand structures path identity
  contained : ∀ x, x ∈ tree.contained ↔ Expanded structures path identity x
  above : (∃ depth < path.length, cut = some depth) ↔ ∃ x, CutAbove structures path identity x
  least : ∀ depth < path.length, cut = some depth →
    (∃ x, path[depth]? = some x ∧ CutAbove structures path identity x) ∧
    ∀ d < depth, ∀ x, path[d]? = some x → ¬CutAbove structures path identity x

theorem Faithful.returns {path : List Int} {identity : Int} {o : Outcome}
    (faithful : Faithful structures path identity o) :
    Returns structures path identity o.tree o.cut := by
  refine ⟨faithful.members, faithful.contained, ⟨?_, ?_⟩, ?_⟩
  · rintro ⟨depth, inside, found⟩
    obtain ⟨_, _, x, _, cut⟩ := (faithful.cut depth inside).mp ⟨depth, le_refl depth, found⟩
    exact ⟨x, cut⟩
  · rintro ⟨x, cut⟩
    obtain ⟨d, inside, value⟩ := List.mem_iff_getElem.mp cut.1
    have stands : path[d]? = some x := by rw [List.getElem?_eq_getElem inside, value]
    obtain ⟨depth, le, found⟩ := (faithful.cut d inside).mpr ⟨d, le_refl d, x, stands, cut⟩
    exact ⟨depth, lt_of_le_of_lt le inside, found⟩
  · intro depth inside found
    have before : ∀ d < depth, ∀ x, path[d]? = some x →
        ¬CutAbove structures path identity x := by
      intro d less x stands cut
      obtain ⟨place, le, found'⟩ :=
        (faithful.cut d (less.trans inside)).mpr ⟨d, le_refl d, x, stands, cut⟩
      cases found.symm.trans found'
      exact absurd less (not_lt.mpr le)
    obtain ⟨d, le, x, stands, cut⟩ := (faithful.cut depth inside).mp ⟨depth, le_refl depth, found⟩
    have here : d = depth := le.antisymm (not_lt.mp fun less => before d less x stands cut)
    exact ⟨⟨x, here ▸ stands, cut⟩, before⟩

/-- **The memo is plain at every moment.** At whatever moment of whatever questions, the path
repeats nothing and is empty between calls, and every kept tree is the plain one below nothing with
exactly the structures expanded in it, its root among them. Between questions what is known is what
the recursion has come to; and every expansion that begins is brought to an end and returns what it
should. -/
theorem reachable_orderly {asked : List Question} {m : Moment}
    (reachable : Reachable structures asked m) :
    m.path.Nodup ∧ (m.task = .idle → m.path = []) ∧
    (∀ identity tree, m.known.kept[identity]? = some tree →
      tree.members = GlobalMap.expand structures [] identity ∧
      (∀ x, x ∈ tree.contained ↔ Expanded structures [] identity x) ∧
      identity ∈ tree.contained) ∧
    (m.task = .idle → m.queue = [] → m.known = (askAll structures {} asked).2) ∧
    ∀ identity, m.task = .enter identity → ∃ o : Outcome,
      m.known.expand structures m.path identity = o ∧
      Leads structures m { m with task := .hand o.tree o.cut, known := o.after } ∧
      Returns structures m.path identity o.tree o.cut := by
  have leads := reachable.leads
  have orderly := leads.first
  refine ⟨orderly.once, fun idle => (orderly.atRest idle).1, ?_, ?_, ?_⟩
  · intro identity tree kept
    obtain ⟨plain, inside⟩ := orderly.memo identity tree kept
    exact ⟨plain.members, plain.contained, inside⟩
  · intro idle done
    cases leads with
    | here => rfl
    | step _ step => simp [Moment.step, idle, done] at step
  · intro identity begins
    have fresh := orderly.fresh identity begins
    have faithful := expand_faithful orderly.stored fresh orderly.memo.sound
    have through : Leads structures (entering m.waiting m.path m.queue m.known identity) _ :=
      leads_expand orderly.once orderly.stored fresh orderly.memo
    have same : entering m.waiting m.path m.queue m.known identity = m := by
      rw [entering, ← begins]
    rw [same] at through
    exact ⟨_, rfl, through, faithful.returns⟩

/-- Two structures with a member of each other's type. -/
def twins : OffsetMap Structure :=
  ((∅ : OffsetMap Structure).insert 1 ⟨some "a", 1, [{ name := "b", typeRef := 2, offset := 0 }]⟩)
    |>.insert 2 ⟨some "b", 2, [{ name := "a", typeRef := 1, offset := 0 }]⟩

/-- In the middle of a call the second of two structures is expanded below the first, and its tree
is cut there. -/
theorem reachable_orderly_twins :
    ∃ m : Moment, Reachable twins [.members 1] m ∧ m.task = .enter 2 ∧ m.path = [1] ∧
      ∃ tree known, Leads twins m { m with task := .hand tree (some 0), known } ∧
        Returns twins [1] 2 tree (some 0) := by
  let first : Frame := ⟨1, 0, ⟨[], {1}⟩, none⟩
  let b : Member := { name := "b", typeRef := 2, offset := 0 }
  let m : Moment := ⟨.enter 2, [⟨first, b, []⟩], [1], {}, []⟩
  have reachable : Reachable twins [.members 1] m :=
    .goesOn (.goesOn (.goesOn (.asks .new rfl rfl (.members 1)) rfl) rfl) rfl
  obtain ⟨_, _, _, _, ends⟩ := reachable_orderly reachable
  obtain ⟨o, _, leads, returns⟩ := ends 2 rfl
  have way : Descent twins [1] 2 [] := descent_nil.mpr ⟨by decide, by decide⟩
  have cut : CutAbove twins [1] 2 1 :=
    ⟨by decide, [], way, _, rfl, _, List.mem_singleton_self _, rfl⟩
  obtain ⟨depth, inside, found⟩ := returns.above.mpr ⟨1, cut⟩
  have root : depth = 0 := Nat.lt_one_iff.mp inside
  rw [found, root] at leads returns
  exact ⟨m, reachable, rfl, rfl, o.tree, o.after, leads, returns⟩

end GlobalMap.Flattener
