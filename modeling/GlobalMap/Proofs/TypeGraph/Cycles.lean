import Mathlib.Logic.Relation
import GlobalMap.Proofs.TypeGraph.Addresses

/-! What is reported of the cycles of a structure map. A cut is reported when it is made, and a kept
tree is not cut once more where it is put to use. No cut goes unreported for that: a kept tree was
cut at structures of its own only, and the report made then shows the same way around, whatever
stood above it. -/
namespace GlobalMap.Flattener

variable {structures : OffsetMap Structure} {path : List Int} {root identity child x : Int}
  {m : Member} {f g h : Flattener} {cuts later : List Cut}

/-- The part of a path from a structure on. -/
def around (path : List Int) (x : Int) : List Int :=
  path.dropWhile (· != x)

/-- A report is of a cycle that is there. Its path leads from the root along members to a structure
with a member of the reported name, and that member's type stands on the path. -/
structure Genuine (structures : OffsetMap Structure) (root : Int) (cut : Cut) : Prop where
  starts : cut.cycle.path.head? = some root
  stored : ∀ x ∈ cut.cycle.path, x ∈ structures
  once : cut.cycle.path.Nodup
  linked : (cut.cycle.path ++ [cut.cycle.offset]).IsChain (Names structures)
  returns : cut.cycle.offset ∈ cut.cycle.path
  member : ∃ last s m, cut.cycle.path.getLast? = some last ∧ structures[last]? = some s ∧
    m ∈ s.members ∧ m.name = cut.member ∧ named? structures m.typeRef = some cut.cycle.offset

/-- The return from the end of a path to a structure on it has been reported, with the same way
around it. -/
def Reported (cuts : List Cut) (path : List Int) (x : Int) : Prop :=
  ∃ cut ∈ cuts, cut.cycle.offset = x ∧ around cut.cycle.path x = around path x

/-- Every return in the tree of a structure below a path has been reported. -/
def AllReported (structures : OffsetMap Structure) (path : List Int) (identity : Int)
    (cuts : List Cut) : Prop :=
  ∀ below x, Descent structures path identity below →
    Names structures (below.getLastD identity) x → x ∈ path ++ identity :: below →
      Reported cuts (path ++ identity :: below) x

/-- Every return at a member and in the tree below it has been reported. -/
def ReportedUnder (structures : OffsetMap Structure) (path : List Int) (m : Member)
    (cuts : List Cut) : Prop :=
  ∀ child, named? structures m.typeRef = some child →
    (child ∈ path → Reported cuts path child) ∧ AllReported structures path child cuts

/-- The returns in kept trees have been reported. -/
def KeptReported (structures : OffsetMap Structure) (f : Flattener) : Prop :=
  ∀ identity tree, f.kept[identity]? = some tree → AllReported structures [] identity f.cuts

/-- What some work below roots has to leave behind: old reports, genuine new ones, and those that
the work calls for. -/
structure Reports (structures : OffsetMap Structure) (roots : List Int) (before after : Flattener)
    (due : List Cut → Prop) : Prop where
  grows : before.cuts ⊆ after.cuts
  genuine : ∀ cut ∈ after.cuts, cut ∈ before.cuts ∨ ∃ root ∈ roots, Genuine structures root cut
  made : due after.cuts
  kept : KeptReported structures after

theorem Reported.mono (reported : Reported cuts path x) (grows : cuts ⊆ later) :
    Reported later path x := by
  obtain ⟨cut, mem, same⟩ := reported
  exact ⟨cut, grows mem, same⟩

theorem AllReported.mono (all : AllReported structures path identity cuts) (grows : cuts ⊆ later) :
    AllReported structures path identity later :=
  fun below x way names mem => (all below x way names mem).mono grows

theorem reportedUnder_unnamed (unnamed : named? structures m.typeRef = none) :
    ReportedUnder structures path m cuts := by
  simp [ReportedUnder, unnamed]

theorem reportedUnder_iff (names : named? structures m.typeRef = some child) :
    ReportedUnder structures path m cuts ↔
      (child ∈ path → Reported cuts path child) ∧ AllReported structures path child cuts := by
  simp [ReportedUnder, names]

/-- There is nothing to report below a structure that is being expanded. -/
theorem allReported_of_mem (seen : identity ∈ path) : AllReported structures path identity cuts :=
  fun _ _ way => absurd seen (way.apart identity (by simp))

theorem KeptReported.of_kept (kept : KeptReported structures f) (same : g.kept = f.kept)
    (grows : f.cuts ⊆ g.cuts) : KeptReported structures g := by
  intro identity tree held
  rw [same] at held
  exact (kept identity tree held).mono grows

namespace Reports

variable {roots wider : List Int} {due other : List Cut → Prop}

theorem refl (kept : KeptReported structures f) (made : due f.cuts) :
    Reports structures roots f f due :=
  ⟨List.Subset.refl _, fun _ mem => .inl mem, made, kept⟩

theorem imp (reports : Reports structures roots f g due)
    (called : due g.cuts → other g.cuts) : Reports structures roots f g other :=
  ⟨reports.grows, reports.genuine, called reports.made, reports.kept⟩

theorem widen (reports : Reports structures roots f g due) (wide : roots ⊆ wider) :
    Reports structures wider f g due := by
  refine ⟨reports.grows, fun cut mem => ?_, reports.made, reports.kept⟩
  rcases reports.genuine cut mem with old | ⟨root, asked, genuine⟩
  · exact .inl old
  · exact .inr ⟨root, wide asked, genuine⟩

/-- One piece of work after the other. What the first one called for stays reported. -/
theorem trans (first : Reports structures roots f g due)
    (second : Reports structures roots g h other)
    (stays : ∀ {cuts later : List Cut}, due cuts → cuts ⊆ later → due later) :
    Reports structures roots f h fun cuts => due cuts ∧ other cuts := by
  refine ⟨List.Subset.trans first.grows second.grows, fun cut mem => ?_,
    ⟨stays first.made second.grows, second.made⟩, second.kept⟩
  rcases second.genuine cut mem with old | new
  · exact first.genuine cut old
  · exact .inr new

end Reports

/-! ## Paths being followed -/

/-- A path of structures being expanded, from a root on. -/
structure Begun (structures : OffsetMap Structure) (root : Int) (path : List Int) : Prop where
  starts : path.head? = some root
  stored : ∀ x ∈ path, x ∈ structures
  once : path.Nodup
  linked : path.IsChain (Names structures)

/-- A member belongs to the structure at the end of a path. -/
def AtEnd (structures : OffsetMap Structure) (path : List Int) (m : Member) : Prop :=
  ∃ last s, path.getLast? = some last ∧ structures[last]? = some s ∧ m ∈ s.members

theorem begun_root (stored : root ∈ structures) : Begun structures root [root] :=
  ⟨rfl, by simpa using stored, by simp, by simp⟩

namespace Begun

theorem linked_concat (begun : Begun structures root path) (last : AtEnd structures path m)
    (names : named? structures m.typeRef = some child) :
    (path ++ [child]).IsChain (Names structures) := by
  obtain ⟨last, s, ends, held, mem⟩ := last
  refine List.isChain_append.mpr ⟨begun.linked, by simp, ?_⟩
  intro y isLast z isHead
  rw [ends] at isLast
  cases isLast
  cases isHead
  exact names_of_member held mem names

theorem concat (begun : Begun structures root path) (last : AtEnd structures path m)
    (names : named? structures m.typeRef = some child) (fresh : child ∉ path)
    (stored : child ∈ structures) : Begun structures root (path ++ [child]) := by
  refine ⟨?_, ?_, ?_, begun.linked_concat last names⟩
  · rw [List.head?_append, begun.starts, Option.some_or]
  · intro x mem
    rcases List.mem_append.mp mem with above | same
    · exact begun.stored x above
    · exact List.mem_singleton.mp same ▸ stored
  · exact List.nodup_append.mpr ⟨begun.once, by simp, by
      rintro x above y same rfl
      exact fresh (List.mem_singleton.mp same ▸ above)⟩

/-- A member that goes back to the path is worth its report. -/
theorem genuine (begun : Begun structures root path) (last : AtEnd structures path m)
    (names : named? structures m.typeRef = some child) (seen : child ∈ path) :
    Genuine structures root ⟨⟨child, path⟩, m.name⟩ := by
  refine ⟨begun.starts, begun.stored, begun.once, begun.linked_concat last names, seen, ?_⟩
  obtain ⟨last, s, ends, held, mem⟩ := last
  exact ⟨last, s, m, ends, held, mem, rfl, names⟩

end Begun

/-! ## One structure -/

theorem around_append (apart : x ∉ path) (below : List Int) :
    around (path ++ below) x = around below x := by
  apply List.dropWhile_append_of_pos
  intro y mem
  exact bne_iff_ne.mpr fun same => apart (same ▸ mem)

/-- Returns in a tree are those at the members of its root and below them. -/
theorem allReported_of_members {s : Structure} (held : structures[identity]? = some s)
    (under : ∀ m ∈ s.members, ReportedUnder structures (path ++ [identity]) m cuts) :
    AllReported structures path identity cuts := by
  intro below x way names mem
  cases below with
  | nil =>
    obtain ⟨m, listed, named⟩ := (names_iff held).mp names
    exact (under m listed x named).1 mem
  | cons child rest =>
    obtain ⟨_, _, first, way⟩ := descent_cons.mp way
    obtain ⟨m, listed, named⟩ := (names_iff held).mp first
    rw [List.getLastD_cons] at names
    rw [List.append_cons] at mem ⊢
    exact (under m listed child named).2 rest x way names mem

/-- In a tree that is cut at nothing above it the same returns are made wherever it stands. -/
theorem allReported_iff_of_uncut (fresh : identity ∉ path)
    (uncut : ∀ x, ¬ CutAbove structures path identity x) :
    AllReported structures path identity cuts ↔ AllReported structures [] identity cuts := by
  have same {below : List Int} : Descent structures path identity below ↔
      Descent structures [] identity below := descent_iff_of_uncut fresh uncut
  constructor
  · intro all below x way names mem
    have reported := all below x (same.mpr way) names (List.mem_append_right _ mem)
    rwa [Reported, around_append ((same.mpr way).apart x mem)] at reported
  · intro all below x way names mem
    have own : x ∈ identity :: below :=
      (List.mem_append.mp mem).resolve_left fun above => uncut x ⟨above, below, way, names⟩
    rw [Reported, around_append (way.apart x own)]
    exact all below x (same.mp way) names own

theorem recordCut_reports {roots : List Int} {cut : Cut} (kept : KeptReported structures f)
    (genuine : ∃ root ∈ roots, Genuine structures root cut) :
    Reports structures roots f (f.recordCut cut.cycle cut.member)
      fun cuts => Reported cuts cut.cycle.path cut.cycle.offset := by
  have grows : f.cuts ⊆ (f.recordCut cut.cycle cut.member).cuts := List.subset_append_left _ _
  refine ⟨grows, ?_, ?_, kept.of_kept rfl grows⟩
  · intro other mem
    rcases List.mem_append.mp mem with old | new
    · exact .inl old
    · exact .inr (List.mem_singleton.mp new ▸ genuine)
  · exact ⟨cut, List.mem_append_right _ (List.mem_singleton.mpr rfl), rfl, rfl⟩

/-- Members one after the other, when every structure that is not on the path is reported on as it
should be. -/
theorem expandMembers_reports (listed : List Member) (f : Flattener)
    (begun : Begun structures root path) (atEnd : ∀ m ∈ listed, AtEnd structures path m)
    (sound : Sound structures f) (kept : KeptReported structures f)
    (each : ∀ m child f, AtEnd structures path m → named? structures m.typeRef = some child →
      child ∉ path → Sound structures f → KeptReported structures f →
        Sound structures (f.expand structures path child).after ∧
          Reports structures [root] f (f.expand structures path child).after
            (AllReported structures path child)) :
    Reports structures [root] f (f.expandMembers structures path listed).after
      fun cuts => ∀ m ∈ listed, ReportedUnder structures path m cuts := by
  induction listed generalizing f with
  | nil =>
    rw [expandMembers]
    exact .refl kept (by simp)
  | cons m rest ih =>
    obtain ⟨last, atEnd⟩ := List.forall_mem_cons.mp atEnd
    rw [expandMembers]
    split
    · rename_i unnamed
      exact (ih f atEnd sound kept).imp fun others =>
        List.forall_mem_cons.mpr ⟨reportedUnder_unnamed unnamed, others⟩
    · rename_i child names
      split
      · rename_i place found
        have seen : child ∈ path := List.isSome_idxOf?.mp (by rw [found]; rfl)
        have here := recordCut_reports kept ⟨root, List.mem_singleton.mpr rfl,
          begun.genuine last names seen⟩
        refine (here.trans (ih _ atEnd sound here.kept) Reported.mono).imp ?_
        rintro ⟨reported, others⟩
        have under := (reportedUnder_iff names).mpr ⟨fun _ => reported, allReported_of_mem seen⟩
        exact List.forall_mem_cons.mpr ⟨under, others⟩
      · rename_i absent
        have fresh : child ∉ path := List.idxOf?_eq_none_iff.mp absent
        obtain ⟨sound, here⟩ := each m child f last names fresh sound kept
        refine (here.trans (ih _ atEnd sound here.kept) AllReported.mono).imp ?_
        rintro ⟨reported, others⟩
        have under := (reportedUnder_iff names).mpr ⟨fun seen => absurd seen fresh, reported⟩
        exact List.forall_mem_cons.mpr ⟨under, others⟩

theorem keep_reported {o : Outcome} (fresh : identity ∉ path)
    (faithful : Faithful structures path identity o)
    (all : AllReported structures path identity o.after.cuts)
    (kept : KeptReported structures o.after) :
    KeptReported structures (o.after.keep path.length identity o.tree o.cut) := by
  unfold keep
  split
  · rename_i deep
    intro x tree held
    rw [Std.ExtTreeMap.getElem?_insert] at held
    split at held
    · rename_i same
      rw [← Std.compare_eq_iff_eq.mp same]
      exact (allReported_iff_of_uncut fresh (uncut_of_faithful faithful deep)).mp all
    · exact kept x tree held
  · exact kept

theorem keep_cuts (f : Flattener) (depth : Nat) (identity : Int) (tree : Expansion)
    (cut : Option Nat) : (f.keep depth identity tree cut).cuts = f.cuts := by
  unfold keep
  split <;> rfl

/-- Expanding a structure below a path that it continues reports every return in its tree, now or
before, and nothing else. -/
theorem expand_reports {path : List Int} {identity : Int} {f : Flattener}
    (above : ∀ x ∈ path, x ∈ structures) (fresh : identity ∉ path)
    (enters : identity ∈ structures → Begun structures root (path ++ [identity]))
    (sound : Sound structures f) (kept : KeptReported structures f) :
    Reports structures [root] f (f.expand structures path identity).after
      (AllReported structures path identity) := by
  rw [expand]
  split
  · rename_i tree usable
    obtain ⟨held, avoids⟩ := Option.filter_eq_some_iff.mp usable
    -- Nothing is recorded here. The tree is cut at nothing above it, so its returns are those that
    -- were reported when it was kept.
    have faithful := faithful_of_kept (sound identity tree held) avoids above sound
    have uncut := uncut_of_faithful faithful rfl
    exact .refl kept ((allReported_iff_of_uncut fresh uncut).mpr (kept identity tree held))
  · split
    · rename_i missing
      refine .refl kept fun below x way => ?_
      exact absurd (way.stored identity (by simp)) (OffsetMap.not_mem_of_lookup missing)
    · rename_i s held
      rw [dif_neg fresh]
      have stored := OffsetMap.mem_of_lookup held
      have shorter := OffsetMap.unvisited_append_lt stored fresh
      have begun := enters stored
      have members := expandMembers_reports s.members f begun
        (fun m mem => ⟨identity, s, by simp, held, mem⟩) sound kept
        fun m child f last names fresh sound kept =>
          ⟨(expand_faithful begun.stored fresh sound).sound,
            expand_reports begun.stored fresh (begun.concat last names fresh) sound kept⟩
      have all := allReported_of_members held members.made
      have faithful := faithful_of_members fresh held (expandMembers_faithful s.members f sound
        fun child f fresh sound => expand_faithful begun.stored fresh sound)
      refine ⟨?_, ?_, ?_, keep_reported fresh faithful all members.kept⟩
      · rw [keep_cuts]
        exact members.grows
      · rw [keep_cuts]
        exact members.genuine
      · rw [keep_cuts]
        exact all
termination_by structures.unvisited path
decreasing_by exact shorter

/-! ## Questions -/

/-- The roots of the trees that a question asks for. -/
def Question.roots (structures : OffsetMap Structure) : Question → List Int
  | .members offset => (structures[offset]?.map Structure.identity).toList
  | .all => structures.toList.map fun row => row.2.identity

/-- The returns in the trees below some roots have been reported. -/
def RootsReported (structures : OffsetMap Structure) (roots : List Int) (cuts : List Cut) : Prop :=
  ∀ root ∈ roots, AllReported structures [] root cuts

theorem RootsReported.mono {roots : List Int} (all : RootsReported structures roots cuts)
    (grows : cuts ⊆ later) : RootsReported structures roots later :=
  fun root mem => (all root mem).mono grows

/-- A tree that nothing stands above. -/
theorem expand_root_reports (sound : Sound structures f) (kept : KeptReported structures f)
    (root : Int) : Reports structures [root] f (f.expand structures [] root).after
      (RootsReported structures [root]) :=
  (expand_reports (by simp) (by simp) begun_root sound kept).imp fun all => by
    simpa [RootsReported] using all

/-- The roots of one piece of work and those of the next. -/
theorem Reports.append {roots others : List Int}
    (first : Reports structures roots f g (RootsReported structures roots))
    (second : Reports structures others g h (RootsReported structures others)) :
    Reports structures (roots ++ others) f h (RootsReported structures (roots ++ others)) := by
  have first := first.widen (List.subset_append_left roots others)
  have second := second.widen (List.subset_append_right roots others)
  refine (first.trans second RootsReported.mono).imp ?_
  exact fun ⟨all, rest⟩ => List.forall_mem_append.mpr ⟨all, rest⟩

theorem flattenRows_reports (rows : List (Int × Structure)) (f : Flattener)
    (sound : Sound structures f) (kept : KeptReported structures f) :
    Reports structures (rows.map fun row => row.2.identity) f (f.flattenRows structures rows).2
      (RootsReported structures (rows.map fun row => row.2.identity)) := by
  induction rows generalizing f with
  | nil => exact .refl kept (by simp [RootsReported])
  | cons row rest ih =>
    obtain ⟨offset, s⟩ := row
    have first := expand_root_reports sound kept s.identity
    exact first.append (ih _ (expand_root sound s.identity).sound first.kept)

theorem ask_reports (sound : Sound structures f) (kept : KeptReported structures f)
    (question : Question) :
    Reports structures (question.roots structures) f (f.ask structures question).2
      (RootsReported structures (question.roots structures)) := by
  cases question with
  | members offset =>
    cases held : structures[offset]? with
    | none =>
      simp only [ask, membersAt?, held, Option.map_none, Question.roots, Option.toList_none]
      exact .refl kept (by simp [RootsReported])
    | some s =>
      simp only [ask, membersAt?, held, Option.map_some, Question.roots, Option.toList_some]
      exact expand_root_reports sound kept s.identity
  | all => exact flattenRows_reports structures.toList f sound kept

theorem askAll_reports (questions : List Question) (f : Flattener) (sound : Sound structures f)
    (kept : KeptReported structures f) :
    Reports structures (questions.flatMap (Question.roots structures)) f
      (f.askAll structures questions).2
      (RootsReported structures (questions.flatMap (Question.roots structures))) := by
  induction questions generalizing f with
  | nil => exact .refl kept (by simp [RootsReported])
  | cons question rest ih =>
    have first := ask_reports sound kept question
    rw [List.flatMap_cons]
    exact first.append (ih _ (ask_plain sound question).2 first.kept)

theorem keptReported_empty : KeptReported structures {} := by
  intro identity tree held
  cases held

/-- An answer holds the tree below a root. -/
inductive Returned (structures : OffsetMap Structure) :
    Question → Answer → Int → List Member → Prop where
  | members {offset : Int} {s : Structure} {fields : List Member}
      (held : structures[offset]? = some s) :
      Returned structures (.members offset) (.members fields) s.identity fields
  | all {flat : OffsetMap Structure} {offset : Int} {s : Structure}
      (held : flat[offset]? = some s) : Returned structures .all (.all flat) s.identity s.members

theorem mem_roots_all {offset : Int} {s : Structure} (held : structures[offset]? = some s) :
    s.identity ∈ Question.all.roots structures :=
  List.mem_map_of_mem (f := fun row : Int × Structure => row.2.identity)
    (Std.ExtTreeMap.mem_toList_iff_getElem?_eq_some.mpr held)

/-- Every root that is asked for is the identity of a stored structure. -/
theorem stored_of_root {question : Question} (asked : root ∈ question.roots structures) :
    ∃ (offset : Int) (s : Structure), structures[offset]? = some s ∧ s.identity = root := by
  cases question with
  | members offset =>
    obtain ⟨s, held, rfl⟩ := Option.map_eq_some_iff.mp (Option.mem_toList.mp asked)
    exact ⟨offset, s, held, rfl⟩
  | all =>
    obtain ⟨row, mem, rfl⟩ := List.mem_map.mp asked
    exact ⟨row.1, row.2, Std.ExtTreeMap.mem_toList_iff_getElem?_eq_some.mp mem, rfl⟩

/-- A tree that is returned is the plain one below a root that was asked for. -/
theorem plain_of_returned {question : Question} {fields : List Member}
    (returned : Returned structures question (plainAnswer structures question) root fields) :
    root ∈ question.roots structures ∧ fields = GlobalMap.expand structures [] root := by
  generalize given : plainAnswer structures question = answer at returned
  cases returned with
  | members held =>
    rw [plainAnswer, held] at given
    cases given
    exact ⟨by simp [Question.roots, held], rfl⟩
  | all held =>
    cases given
    rw [Std.ExtTreeMap.getElem?_map, Option.map_eq_some_iff] at held
    obtain ⟨s, held, rfl⟩ := held
    exact ⟨mem_roots_all (s := s) held, rfl⟩

/-- A node whose structure stands above it has its return among those of the tree. -/
theorem reported_of_node {address : List Nat} {node : Member}
    (all : AllReported structures [] root cuts)
    (found : nodeAt? (GlobalMap.expand structures [] root) address = some node) :
    ∃ way m, Addressed structures root address way m ∧
      ∀ x ∈ way, named? structures node.typeRef = some x → Reported cuts way x := by
  obtain ⟨way, m, leads, simple, rfl⟩ := nodeAt?_root.mp found
  refine ⟨way, m, leads, fun x above names => ?_⟩
  rw [(expandMember_carries structures way m).2.1] at names
  obtain ⟨below, s, rfl, down, held, mem⟩ := descent_of_addressed leads simple
  exact all below x down (names_of_member held mem names) above

/-! ## Maps without cycles -/

/-- No way down from a root comes back to itself. -/
def Straight (structures : OffsetMap Structure) (root : Int) : Prop :=
  ∀ below x, Descent structures [] root below → Names structures (below.getLastD root) x →
    x ∉ root :: below

theorem straight_of_empty (all : AllReported structures [] root []) : Straight structures root := by
  intro below x way names mem
  obtain ⟨_, impossible, _⟩ := all below x way names mem
  cases impossible

theorem stored_of_names (names : Names structures x child) : x ∈ structures := by
  obtain ⟨s, held, _⟩ := names
  exact OffsetMap.mem_of_lookup held

/-- Where nothing comes back, each stored structure that can be reached is the end of a way down. -/
theorem descent_of_reach (straight : Straight structures root)
    (reach : Relation.ReflTransGen (Names structures) root x) (stored : x ∈ structures) :
    ∃ below, Descent structures [] root below ∧ below.getLastD root = x := by
  induction reach with
  | refl => exact ⟨[], descent_nil.mpr ⟨stored, List.not_mem_nil⟩, rfl⟩
  | @tail y x _ names ih =>
    obtain ⟨below, way, rfl⟩ := ih (stored_of_names names)
    refine ⟨below ++ [x], descent_concat.mpr ⟨way, names, stored, List.not_mem_nil, ?_⟩, by simp⟩
    exact straight below x way names

/-- Going on from a structure that was reached leads past it for good. -/
theorem no_cycle_of_straight (straight : Straight structures root)
    (reach : Relation.ReflTransGen (Names structures) root x) :
    ¬ Relation.TransGen (Names structures) x x := by
  have passed : ∀ y, Relation.TransGen (Names structures) x y → ∃ below,
      Descent structures [] root below ∧ Names structures (below.getLastD root) y ∧
        x ∈ root :: below := by
    intro y around
    induction around with
    | single names =>
      obtain ⟨below, way, rfl⟩ := descent_of_reach straight reach (stored_of_names names)
      exact ⟨below, way, names, by cases below <;> simp [List.getLastD]⟩
    | @tail y z _ names ih =>
      obtain ⟨below, way, last, mem⟩ := ih
      refine ⟨below ++ [y], descent_concat.mpr ⟨way, last, stored_of_names names,
        List.not_mem_nil, straight below y way last⟩, by simpa using names, ?_⟩
      exact List.mem_append_left [y] mem
  intro around
  obtain ⟨below, way, names, mem⟩ := passed x around
  exact straight below x way names mem

/-- The structure that a report is about can be reached from the root, and from itself. -/
theorem cycle_of_genuine {cut : Cut} (genuine : Genuine structures root cut) :
    Relation.ReflTransGen (Names structures) root cut.cycle.offset ∧
      Relation.TransGen (Names structures) cut.cycle.offset cut.cycle.offset := by
  have linked := genuine.linked.imp fun _ _ names => Relation.TransGen.single names
  have leads : ∀ y ∈ cut.cycle.path, Relation.TransGen (Names structures) y cut.cycle.offset :=
    fun y mem => (List.pairwise_append.mp (List.isChain_iff_pairwise.mp linked)).2.2 y mem _
      (List.mem_singleton.mpr rfl)
  exact ⟨(leads root (List.mem_of_head? genuine.starts)).to_reflTransGen,
    leads _ genuine.returns⟩

/-- Reports account for the trees that were returned. -/
structure Accounted (structures : OffsetMap Structure) (questions : List Question)
    (answers : List Answer) (cuts : List Cut) : Prop where
  /-- Every report is of a cycle, on a path from a root that was asked for. -/
  genuine : ∀ cut ∈ cuts, ∃ question ∈ questions, ∃ root ∈ question.roots structures,
    Genuine structures root cut
  /-- A node whose structure stands on the way to it was reported with that way around. -/
  reported : ∀ question answer root fields address node,
    (question, answer) ∈ questions.zip answers → Returned structures question answer root fields →
      nodeAt? fields address = some node → ∃ way m, Addressed structures root address way m ∧
        ∀ x ∈ way, named? structures node.typeRef = some x → Reported cuts way x
  /-- Once all structures were asked for, there is no report only where no cycle can be reached. -/
  acyclic : Question.all ∈ questions → (cuts = [] ↔ ∀ (offset : Int) (s : Structure) x,
    structures[offset]? = some s →
    Relation.ReflTransGen (Names structures) s.identity x →
      ¬ Relation.TransGen (Names structures) x x)

/-- **Cuts are reported, and nothing else is.** Whatever is asked of a new flattener, its reports
are of cycles that are there, and no member of an answer is left without fields silently. -/
theorem askAll_accounted (structures : OffsetMap Structure) (questions : List Question) :
    Accounted structures questions (askAll structures {} questions).1
      (askAll structures {} questions).2.cuts := by
  have sound : Sound structures {} := sound_empty
  have reports := askAll_reports questions {} sound keptReported_empty
  have genuine : ∀ cut ∈ (askAll structures {} questions).2.cuts, ∃ question ∈ questions,
      ∃ root ∈ question.roots structures, Genuine structures root cut := by
    intro cut mem
    obtain ⟨root, asked, genuine⟩ := (reports.genuine cut mem).resolve_left List.not_mem_nil
    obtain ⟨question, inside, asked⟩ := List.mem_flatMap.mp asked
    exact ⟨question, inside, root, asked, genuine⟩
  refine ⟨genuine, ?_, ?_⟩
  · intro question answer root fields address node asked returned found
    have pairs : questions.zip (questions.map (plainAnswer structures)) =
        questions.map fun question => (question, plainAnswer structures question) := by
      simpa using List.zip_map' (f := id) (g := plainAnswer structures) (l := questions)
    rw [(askAll_sound questions {} sound).1, pairs, List.mem_map] at asked
    obtain ⟨_, inside, same⟩ := asked
    cases same
    obtain ⟨isRoot, rfl⟩ := plain_of_returned returned
    have all := reports.made root (List.mem_flatMap.mpr ⟨question, inside, isRoot⟩)
    exact reported_of_node all found
  · intro asked
    constructor
    · intro none offset s x held reach
      have all := reports.made s.identity
        (List.mem_flatMap.mpr ⟨.all, asked, mem_roots_all held⟩)
      rw [none] at all
      exact no_cycle_of_straight (straight_of_empty all) reach
    · intro acyclic
      apply List.eq_nil_iff_forall_not_mem.mpr
      intro cut mem
      obtain ⟨question, _, root, isRoot, genuine⟩ := genuine cut mem
      obtain ⟨offset, s, held, rfl⟩ := stored_of_root isRoot
      obtain ⟨reach, around⟩ := cycle_of_genuine genuine
      exact acyclic offset s _ held reach around

end GlobalMap.Flattener
