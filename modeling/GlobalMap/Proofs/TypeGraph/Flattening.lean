import GlobalMap.Proofs.TypeGraph.Descent
import GlobalMap.TypeGraph.Flattener

/-! Kept trees never show in an answer. What a flattener keeps is the tree of a
structure below nothing, with exactly the structures expanded in it; such a tree
may be put below any path that it avoids. Hence every question is answered by the
plain expansion, whatever was asked before. -/
namespace GlobalMap.Flattener

variable {structures : OffsetMap Structure} {path : List Int} {identity : Int} {f : Flattener}

/-- A kept tree is the plain one below nothing, and its structures are those
expanded in it. -/
structure Plain (structures : OffsetMap Structure) (identity : Int) (tree : Expansion) : Prop where
  members : tree.members = GlobalMap.expand structures [] identity
  contained : ∀ x, x ∈ tree.contained ↔ Expanded structures [] identity x

/-- Every kept tree is plain. -/
def Sound (structures : OffsetMap Structure) (f : Flattener) : Prop :=
  ∀ identity tree, f.kept[identity]? = some tree → Plain structures identity tree

/-- A structure of a path, no deeper than a given depth, has a property. -/
def UpTo (path : List Int) (depth : Nat) (p : Int → Prop) : Prop :=
  ∃ d ≤ depth, ∃ x, path[d]? = some x ∧ p x

/-- What expanding a structure below a path has to give. The cut is told apart
only where it lies above the structure. -/
structure Faithful (structures : OffsetMap Structure) (path : List Int) (identity : Int)
    (o : Outcome) : Prop where
  members : o.tree.members = GlobalMap.expand structures path identity
  contained : ∀ x, x ∈ o.tree.contained ↔ Expanded structures path identity x
  cut : ∀ depth < path.length, (∃ d ≤ depth, o.cut = some d) ↔
    UpTo path depth (CutAbove structures path identity)
  sound : Sound structures o.after

/-- A structure is expanded in the tree below a member. -/
def ExpandedUnder (structures : OffsetMap Structure) (path : List Int) (m : Member) (x : Int) :
    Prop :=
  ∃ child, named? structures m.typeRef = some child ∧ Expanded structures path child x

/-- A member is left without fields for a structure of the path above it, or one
in the tree below it is. -/
def CutUnder (structures : OffsetMap Structure) (path : List Int) (m : Member) (x : Int) : Prop :=
  ∃ child, named? structures m.typeRef = some child ∧
    (child = x ∨ CutAbove structures path child x)

/-- What expanding some members of the structure at the end of a path has to
give. -/
structure MembersFaithful (structures : OffsetMap Structure) (path : List Int)
    (listed : List Member) (o : Outcome) : Prop where
  members : o.tree.members = listed.map (expandMember structures path)
  contained : ∀ x, x ∈ o.tree.contained ↔ ∃ m ∈ listed, ExpandedUnder structures path m x
  cut : ∀ depth < path.length, (∃ d ≤ depth, o.cut = some d) ↔
    UpTo path depth fun x => ∃ m ∈ listed, CutUnder structures path m x
  sound : Sound structures o.after

theorem upTo_or {depth : Nat} {p q : Int → Prop} :
    UpTo path depth (fun x => p x ∨ q x) ↔ UpTo path depth p ∨ UpTo path depth q := by
  simp only [UpTo, and_or_left, exists_or]

theorem upTo_congr {depth : Nat} {p q : Int → Prop} (same : ∀ x ∈ path, p x ↔ q x) :
    UpTo path depth p ↔ UpTo path depth q := by
  constructor
  · rintro ⟨d, le, x, stands, holds⟩
    exact ⟨d, le, x, stands, (same x (List.mem_of_getElem? stands)).mp holds⟩
  · rintro ⟨d, le, x, stands, holds⟩
    exact ⟨d, le, x, stands, (same x (List.mem_of_getElem? stands)).mpr holds⟩

/-- The first place of a structure on a path decides from which depth on it is
there. -/
theorem upTo_eq_iff {depth place : Nat} {child : Int} (found : path.idxOf? child = some place) :
    UpTo path depth (child = ·) ↔ place ≤ depth := by
  obtain ⟨inside, here, first⟩ := List.idxOf?_eq_some_iff.mp found
  constructor
  · rintro ⟨d, le, x, stands, rfl⟩
    obtain ⟨_, value⟩ := List.getElem?_eq_some_iff.mp stands
    have notBefore : ¬ d < place := fun before => first d before value
    omega
  · exact fun le => ⟨place, le, child, by rw [List.getElem?_eq_getElem inside, here], rfl⟩

theorem shallowest_le {a b : Option Nat} {depth : Nat} :
    (∃ d ≤ depth, shallowest a b = some d) ↔
      (∃ d ≤ depth, a = some d) ∨ ∃ d ≤ depth, b = some d := by
  cases a with
  | none => simp [shallowest]
  | some a =>
    cases b with
    | none => simp [shallowest]
    | some b =>
      simp only [shallowest, Option.some.injEq, exists_eq_right']
      omega

theorem avoids_iff {tree : Expansion} :
    tree.avoids path = true ↔ ∀ x ∈ tree.contained, x ∉ path := by
  simp only [Expansion.avoids, List.all_eq_true, Bool.not_eq_true',
    ← Std.ExtTreeSet.contains_iff_mem]
  constructor
  · intro avoids x inside mem
    rw [avoids x mem] at inside
    cases inside
  · intro avoids x mem
    cases inside : tree.contained.contains x with
    | false => rfl
    | true => exact absurd mem (avoids x inside)

/-- A kept tree that avoids the path is what expanding below the path gives. -/
theorem faithful_of_kept {tree : Expansion} (plain : Plain structures identity tree)
    (avoids : tree.avoids path = true) (stored : ∀ x ∈ path, x ∈ structures)
    (sound : Sound structures f) : Faithful structures path identity ⟨tree, none, f⟩ := by
  have apart : ∀ x, Expanded structures [] identity x → x ∉ path :=
    fun x inside => avoids_iff.mp avoids x ((plain.contained x).mpr inside)
  have same : ∀ below, Descent structures path identity below ↔
      Descent structures [] identity below := fun _ => descent_iff_of_avoids apart
  refine ⟨?_, ?_, ?_, sound⟩
  · exact plain.members.trans (expand_eq_of_descent_iff same).symm
  · exact fun x => (plain.contained x).trans
      (exists_congr fun below => and_congr_left fun _ => (same below).symm)
  · intro depth inside
    constructor
    · rintro ⟨d, _, impossible⟩
      cases impossible
    · -- A structure of the path that is named in the tree would be expanded there.
      rintro ⟨d, _, x, _, above, below, way, names⟩
      have new : x ∉ identity :: below := fun mem => way.apart x mem above
      have longer : Descent structures [] identity (below ++ [x]) :=
        descent_concat.mpr ⟨(same below).mp way, names, stored x above, List.not_mem_nil, new⟩
      exact absurd above (apart x ⟨below ++ [x], longer, by simp⟩)

/-- A structure that is not stored has no members and is not expanded. -/
theorem faithful_of_missing (missing : structures[identity]? = none) (sound : Sound structures f) :
    Faithful structures path identity ⟨⟨[], ∅⟩, none, f⟩ := by
  have unstored := OffsetMap.not_mem_of_lookup missing
  refine ⟨(expand_of_none missing).symm, ?_, ?_, sound⟩
  · intro x
    constructor
    · exact fun mem => absurd mem Std.ExtTreeSet.not_mem_empty
    · exact fun inside => absurd (expanded_iff.mp inside).1 unstored
  · intro depth inside
    constructor
    · rintro ⟨d, _, impossible⟩
      cases impossible
    · rintro ⟨d, _, x, _, cut⟩
      exact absurd ((cutAbove_iff cut.1).mp cut).1 unstored

theorem expandedUnder_iff {m : Member} {child x : Int}
    (names : named? structures m.typeRef = some child) :
    ExpandedUnder structures path m x ↔ Expanded structures path child x := by
  simp [ExpandedUnder, names]

theorem cutUnder_iff {m : Member} {child x : Int}
    (names : named? structures m.typeRef = some child) :
    CutUnder structures path m x ↔ child = x ∨ CutAbove structures path child x := by
  simp [CutUnder, names]

/-- Nothing is expanded or cut below a structure that is being expanded. -/
theorem not_expanded_of_mem {child x : Int} (seen : child ∈ path) :
    ¬ Expanded structures path child x :=
  fun inside => (expanded_iff.mp inside).2.1 seen

theorem not_cutAbove_of_mem {child x : Int} (seen : child ∈ path) :
    ¬ CutAbove structures path child x :=
  fun cut => ((cutAbove_iff cut.1).mp cut).2.1 seen

section Head

variable {m : Member} {rest : List Member} {others : Outcome} {child : Int}

/-- A member whose type is no structure stays as it is. -/
theorem membersFaithful_unnamed (unnamed : named? structures m.typeRef = none)
    (faithful : MembersFaithful structures path rest others) :
    MembersFaithful structures path (m :: rest)
      { others with tree := { others.tree with members := m.bare :: others.tree.members } } := by
  refine ⟨?_, ?_, ?_, faithful.sound⟩
  · simp only [faithful.members, List.map_cons, expandMember, unnamed]
  · intro x
    simp [faithful.contained x, ExpandedUnder, unnamed]
  · intro depth inside
    simp [faithful.cut depth inside, CutUnder, unnamed]

/-- A member whose structure is being expanded is a cut, and nothing is below it. -/
theorem membersFaithful_cut {place : Nat} (names : named? structures m.typeRef = some child)
    (found : path.idxOf? child = some place)
    (faithful : MembersFaithful structures path rest others) :
    MembersFaithful structures path (m :: rest)
      { others with
        tree := { others.tree with members := m.bare :: others.tree.members }
        cut := shallowest (some place) others.cut } := by
  have seen : child ∈ path := List.isSome_idxOf?.mp (by rw [found]; rfl)
  refine ⟨?_, ?_, ?_, faithful.sound⟩
  · simp only [faithful.members, List.map_cons, expandMember, names, expand_of_mem seen,
      Member.bare]
  · intro x
    simp only [faithful.contained x, List.mem_cons, exists_eq_or_imp, expandedUnder_iff names,
      not_expanded_of_mem seen, false_or]
  · intro depth inside
    simp only [shallowest_le, faithful.cut depth inside, List.mem_cons, exists_eq_or_imp,
      cutUnder_iff names, not_cutAbove_of_mem seen, or_false, upTo_or, upTo_eq_iff found,
      Option.some.injEq, exists_eq_right']

/-- A member whose structure is not being expanded has its tree below it. -/
theorem membersFaithful_expanded {below : Outcome}
    (names : named? structures m.typeRef = some child) (fresh : child ∉ path)
    (expanded : Faithful structures path child below)
    (faithful : MembersFaithful structures path rest others) :
    MembersFaithful structures path (m :: rest) {
      tree := {
        members := { m with fields := below.tree.members } :: others.tree.members
        contained := below.tree.contained.insertMany others.tree.contained.toList }
      cut := shallowest below.cut others.cut
      after := others.after } := by
  refine ⟨?_, ?_, ?_, faithful.sound⟩
  · simp only [faithful.members, expanded.members, List.map_cons, expandMember, names]
  · intro x
    simp only [Std.ExtTreeSet.mem_insertMany_list, expanded.contained x, List.mem_cons,
      exists_eq_or_imp, expandedUnder_iff names, List.contains_iff_mem,
      Std.ExtTreeSet.mem_toList, faithful.contained x]
  · intro depth inside
    have headCut : UpTo path depth (CutUnder structures path m) ↔
        UpTo path depth (CutAbove structures path child) := by
      apply upTo_congr
      intro x mem
      rw [cutUnder_iff names]
      exact or_iff_right fun same => fresh (same ▸ mem)
    simp only [shallowest_le, expanded.cut depth inside, faithful.cut depth inside, List.mem_cons,
      exists_eq_or_imp, upTo_or, headCut]

end Head

/-- Members one after the other, when every structure that is not on the path is
expanded as it should be. -/
theorem expandMembers_faithful (listed : List Member) (f : Flattener) (sound : Sound structures f)
    (each : ∀ child f, child ∉ path → Sound structures f →
      Faithful structures path child (f.expand structures path child)) :
    MembersFaithful structures path listed (f.expandMembers structures path listed) := by
  induction listed generalizing f with
  | nil =>
    rw [expandMembers]
    exact ⟨rfl, by simp, by simp [UpTo], sound⟩
  | cons m rest ih =>
    rw [expandMembers]
    split
    · rename_i unnamed
      exact membersFaithful_unnamed unnamed (ih f sound)
    · rename_i child names
      split
      · rename_i place found
        exact membersFaithful_cut names found (ih (f.recordCut ⟨child, path⟩ m.name) sound)
      · rename_i absent
        have fresh : child ∉ path := List.idxOf?_eq_none_iff.mp absent
        have below := each child f fresh sound
        have others := ih (f.expand structures path child).after below.sound
        exact membersFaithful_expanded names fresh below others

/-- The tree of a structure, put together from its members below it. -/
theorem faithful_of_members {s : Structure} {below : Outcome} (fresh : identity ∉ path)
    (held : structures[identity]? = some s)
    (members : MembersFaithful structures (path ++ [identity]) s.members below) :
    Faithful structures path identity { below with
      tree := { below.tree with contained := below.tree.contained.insert identity } } := by
  have stored := OffsetMap.mem_of_lookup held
  refine ⟨?_, ?_, ?_, members.sound⟩
  · rw [expand_of_fresh fresh held]
    exact members.members
  · intro x
    have inside : (∃ child, Names structures identity child ∧
          Expanded structures (path ++ [identity]) child x) ↔
        ∃ m ∈ s.members, ExpandedUnder structures (path ++ [identity]) m x :=
      exists_names_iff held
    rw [expanded_iff, Std.ExtTreeSet.mem_insert, members.contained x, inside,
      Std.compare_eq_iff_eq, eq_comm]
    simp only [stored, fresh, not_false_eq_true, true_and]
  · intro depth above
    have deep : depth < (path ++ [identity]).length := by
      rw [List.length_append]
      omega
    rw [members.cut depth deep]
    constructor
    · rintro ⟨d, le, x, stands, cut⟩
      have onPath : path[d]? = some x := by
        rwa [List.getElem?_append_left (by omega)] at stands
      refine ⟨d, le, x, onPath, (cutAbove_iff (List.mem_of_getElem? onPath)).mpr ?_⟩
      exact ⟨stored, fresh, (exists_names_iff held).mpr cut⟩
    · rintro ⟨d, le, x, onPath, cut⟩
      have found := ((cutAbove_iff (List.mem_of_getElem? onPath)).mp cut).2.2
      refine ⟨d, le, x, ?_, (exists_names_iff held).mp found⟩
      rwa [List.getElem?_append_left (by omega)]

/-- A tree whose shallowest cut is no higher than its root is cut at no structure above it. -/
theorem uncut_of_faithful {o : Outcome} (faithful : Faithful structures path identity o)
    (deep : o.cut.all (path.length ≤ ·) = true) (x : Int) :
    ¬ CutAbove structures path identity x := by
  intro cut
  obtain ⟨d, inside, value⟩ := List.mem_iff_getElem.mp cut.1
  have stands : path[d]? = some x := by rw [List.getElem?_eq_getElem inside, value]
  obtain ⟨place, le, found⟩ := (faithful.cut d inside).mpr ⟨d, le_refl d, x, stands, cut⟩
  rw [found, Option.all_some, decide_eq_true_eq] at deep
  omega

/-- A tree with no cut above its root is plain. -/
theorem plain_of_faithful {o : Outcome} (fresh : identity ∉ path)
    (faithful : Faithful structures path identity o) (deep : o.cut.all (path.length ≤ ·) = true) :
    Plain structures identity o.tree := by
  have same : ∀ below, Descent structures path identity below ↔
      Descent structures [] identity below :=
    fun _ => descent_iff_of_uncut fresh (uncut_of_faithful faithful deep)
  refine ⟨faithful.members.trans (expand_eq_of_descent_iff same), ?_⟩
  exact fun x => (faithful.contained x).trans
    (exists_congr fun below => and_congr_left fun _ => same below)

theorem keep_sound {o : Outcome} (fresh : identity ∉ path)
    (faithful : Faithful structures path identity o) :
    Sound structures (o.after.keep path.length identity o.tree o.cut) := by
  unfold keep
  split
  · rename_i deep
    intro x tree kept
    rw [Std.ExtTreeMap.getElem?_insert] at kept
    split at kept
    · rename_i same
      cases kept
      exact Std.compare_eq_iff_eq.mp same ▸ plain_of_faithful fresh faithful deep
    · exact faithful.sound x tree kept
  · exact faithful.sound

/-- Expanding a structure gives its plain tree below the path, whatever has been
kept before. -/
theorem expand_faithful {path : List Int} {identity : Int} {f : Flattener}
    (stored : ∀ x ∈ path, x ∈ structures) (fresh : identity ∉ path) (sound : Sound structures f) :
    Faithful structures path identity (f.expand structures path identity) := by
  rw [expand]
  split
  · rename_i tree usable
    obtain ⟨kept, avoids⟩ := Option.filter_eq_some_iff.mp usable
    exact faithful_of_kept (sound identity tree kept) avoids stored sound
  · split
    · rename_i missing
      exact faithful_of_missing missing sound
    · rename_i s held
      rw [dif_neg fresh]
      have shorter := OffsetMap.unvisited_append_lt (OffsetMap.mem_of_lookup held) fresh
      have longer : ∀ x ∈ path ++ [identity], x ∈ structures := by
        intro x mem
        rcases List.mem_append.mp mem with above | same
        · exact stored x above
        · exact List.mem_singleton.mp same ▸ OffsetMap.mem_of_lookup held
      have members := expandMembers_faithful s.members f sound
        fun child f fresh sound => expand_faithful longer fresh sound
      have faithful := faithful_of_members fresh held members
      exact ⟨faithful.members, faithful.contained, faithful.cut, keep_sound fresh faithful⟩
termination_by structures.unvisited path
decreasing_by exact shorter

end GlobalMap.Flattener
