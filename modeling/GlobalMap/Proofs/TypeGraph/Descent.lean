import Mathlib.Data.List.Chain
import GlobalMap.Proofs.OffsetMap
import GlobalMap.TypeGraph.Expansion

/-! Ways down from a structure, and what the tree below it owes to them. A tree
is settled by the structures that can be reached without meeting one twice: two
paths that leave the same ways open have the same tree below them, whatever else
stands on them. -/
namespace GlobalMap

variable {structures : OffsetMap Structure} {path other below : List Int} {identity child x : Int}

/-- A stored structure has a member whose type is another structure. -/
def Names (structures : OffsetMap Structure) (outer inner : Int) : Prop :=
  ∃ s, structures[outer]? = some s ∧
    ∃ m ∈ s.members, named? structures m.typeRef = some inner

/-- A way down from a structure below a path. Every structure on the way is
stored and names the next one, and none is met twice or stands on the path. -/
structure Descent (structures : OffsetMap Structure) (path : List Int) (identity : Int)
    (below : List Int) : Prop where
  linked : List.IsChain (Names structures) (identity :: below)
  stored : ∀ x ∈ identity :: below, x ∈ structures
  once : (identity :: below).Nodup
  apart : ∀ x ∈ identity :: below, x ∉ path

/-- A structure is expanded somewhere in the tree of another one below a path. -/
def Expanded (structures : OffsetMap Structure) (path : List Int) (identity x : Int) : Prop :=
  ∃ below, Descent structures path identity below ∧ x ∈ identity :: below

/-- The tree of a structure below a path is cut at a structure of that path. -/
def CutAbove (structures : OffsetMap Structure) (path : List Int) (identity x : Int) : Prop :=
  x ∈ path ∧ ∃ below, Descent structures path identity below ∧
    Names structures (below.getLastD identity) x

theorem names_of_member {s : Structure} {m : Member} (held : structures[identity]? = some s)
    (mem : m ∈ s.members) (names : named? structures m.typeRef = some child) :
    Names structures identity child :=
  ⟨s, held, m, mem, names⟩

theorem names_iff {s : Structure} (held : structures[identity]? = some s) :
    Names structures identity child ↔
      ∃ m ∈ s.members, named? structures m.typeRef = some child := by
  constructor
  · rintro ⟨s', held', found⟩
    rw [held] at held'
    cases held'
    exact found
  · exact fun found => ⟨s, held, found⟩

/-- What holds of some structure named is what holds through some member. -/
theorem exists_names_iff {s : Structure} {p : Int → Prop}
    (held : structures[identity]? = some s) :
    (∃ child, Names structures identity child ∧ p child) ↔
      ∃ m ∈ s.members, ∃ child, named? structures m.typeRef = some child ∧ p child := by
  constructor
  · rintro ⟨child, names, holds⟩
    obtain ⟨m, mem, names⟩ := (names_iff held).mp names
    exact ⟨m, mem, child, names, holds⟩
  · rintro ⟨m, mem, child, names, holds⟩
    exact ⟨child, names_of_member held mem names, holds⟩

theorem descent_nil :
    Descent structures path identity [] ↔ identity ∈ structures ∧ identity ∉ path := by
  constructor
  · exact fun way => ⟨way.stored identity (by simp), way.apart identity (by simp)⟩
  · rintro ⟨stored, fresh⟩
    exact ⟨by simp, by simpa using stored, by simp, by simpa using fresh⟩

/-- A way down begins with the structure itself and goes on below it. -/
theorem descent_cons :
    Descent structures path identity (child :: below) ↔
      identity ∈ structures ∧ identity ∉ path ∧ Names structures identity child ∧
        Descent structures (path ++ [identity]) child below := by
  constructor
  · intro way
    obtain ⟨first, linked⟩ := List.isChain_cons_cons.mp way.linked
    obtain ⟨new, once⟩ := List.nodup_cons.mp way.once
    refine ⟨way.stored identity (by simp), way.apart identity (by simp), first, linked,
      fun x mem => way.stored x (List.mem_cons_of_mem _ mem), once, ?_⟩
    intro x mem onPath
    rcases List.mem_append.mp onPath with above | same
    · exact way.apart x (List.mem_cons_of_mem _ mem) above
    · exact new (List.mem_singleton.mp same ▸ mem)
  · rintro ⟨stored, fresh, first, way⟩
    refine ⟨List.isChain_cons_cons.mpr ⟨first, way.linked⟩, ?_, ?_, ?_⟩
    · intro x mem
      rcases List.mem_cons.mp mem with rfl | mem
      · exact stored
      · exact way.stored x mem
    · exact List.nodup_cons.mpr ⟨fun mem => way.apart identity mem (by simp), way.once⟩
    · intro x mem
      rcases List.mem_cons.mp mem with rfl | mem
      · exact fresh
      · exact fun above => way.apart x mem (List.mem_append_left _ above)

/-- The last step of a way down. -/
theorem descent_concat :
    Descent structures path identity (below ++ [x]) ↔
      Descent structures path identity below ∧ Names structures (below.getLastD identity) x ∧
        x ∈ structures ∧ x ∉ path ∧ x ∉ identity :: below := by
  induction below generalizing path identity with
  | nil =>
    rw [List.nil_append, descent_cons, descent_nil, descent_nil]
    simp only [List.getLastD_nil, List.mem_append, List.mem_singleton, not_or]
    constructor
    · rintro ⟨stored, fresh, names, inside, notAbove, new⟩
      exact ⟨⟨stored, fresh⟩, names, inside, notAbove, new⟩
    · rintro ⟨⟨stored, fresh⟩, names, inside, notAbove, new⟩
      exact ⟨stored, fresh, names, inside, notAbove, new⟩
  | cons child rest ih =>
    rw [List.cons_append, descent_cons, descent_cons, ih, List.getLastD_cons]
    simp only [List.mem_append, List.mem_cons, List.not_mem_nil, or_false, not_or]
    constructor
    · rintro ⟨stored, fresh, first, way, last, inside, ⟨notAbove, notRoot⟩, new⟩
      exact ⟨⟨stored, fresh, first, way⟩, last, inside, notAbove, notRoot, new⟩
    · rintro ⟨⟨stored, fresh, first, way⟩, last, inside, notAbove, notRoot, new⟩
      exact ⟨stored, fresh, first, way, last, inside, ⟨notAbove, notRoot⟩, new⟩

/-- What stands above only takes ways away. -/
theorem descent_iff_apart :
    Descent structures path identity below ↔
      Descent structures [] identity below ∧ ∀ x ∈ identity :: below, x ∉ path := by
  constructor
  · exact fun way => ⟨⟨way.linked, way.stored, way.once, by simp⟩, way.apart⟩
  · exact fun ⟨way, apart⟩ => ⟨way.linked, way.stored, way.once, apart⟩

theorem expand_of_mem (seen : identity ∈ path) : expand structures path identity = [] := by
  rw [expand, dif_pos seen]

theorem expand_of_none (missing : structures[identity]? = none) :
    expand structures path identity = [] := by
  rw [expand]
  split
  · rfl
  · split
    · rfl
    · rename_i held
      rw [missing] at held
      cases held

/-- A member below the structure at the end of a path, with its fields. -/
def expandMember (structures : OffsetMap Structure) (path : List Int) (m : Member) : Member :=
  match named? structures m.typeRef with
  | none => m.bare
  | some child => { m with fields := expand structures path child }

/-- Expanding a structure adds fields to its members and no more. -/
theorem bare_expandMember (structures : OffsetMap Structure) (path : List Int) (m : Member) :
    (expandMember structures path m).bare = m.bare := by
  unfold expandMember
  split <;> rfl

theorem expand_of_fresh {s : Structure} (fresh : identity ∉ path)
    (held : structures[identity]? = some s) :
    expand structures path identity =
      s.members.map (expandMember structures (path ++ [identity])) := by
  rw [expand, dif_neg fresh]
  split
  · rename_i missing
    rw [missing] at held
    cases held
  · rename_i s' held'
    rw [held] at held'
    cases held'
    rfl

private theorem expand_of_closed (closed : ¬ Descent structures path identity []) :
    expand structures path identity = [] := by
  by_cases seen : identity ∈ path
  · exact expand_of_mem seen
  · apply expand_of_none
    exact Std.ExtTreeMap.getElem?_eq_none
      fun stored => closed (descent_nil.mpr ⟨stored, seen⟩)

/-- The ways down decide the tree. -/
theorem expand_eq_of_descent_iff {path other : List Int} {identity : Int}
    (same : ∀ below,
      Descent structures path identity below ↔ Descent structures other identity below) :
    expand structures path identity = expand structures other identity := by
  by_cases opened : Descent structures path identity []
  · obtain ⟨stored, fresh⟩ := descent_nil.mp opened
    obtain ⟨_, fresh'⟩ := descent_nil.mp ((same []).mp opened)
    obtain ⟨s, held⟩ := OffsetMap.exists_lookup stored
    rw [expand_of_fresh fresh held, expand_of_fresh fresh' held]
    apply List.map_congr_left
    intro m mem
    cases names : named? structures m.typeRef with
    | none => simp only [expandMember, names]
    | some child =>
      have first := names_of_member held mem names
      -- The ways down from the child are those of the root that begin with it.
      have sameBelow : ∀ below, Descent structures (path ++ [identity]) child below ↔
          Descent structures (other ++ [identity]) child below := by
        intro below
        have step := same (child :: below)
        rw [descent_cons, descent_cons] at step
        constructor
        · exact fun way => (step.mp ⟨stored, fresh, first, way⟩).2.2.2
        · exact fun way => (step.mpr ⟨stored, fresh', first, way⟩).2.2.2
      simp only [expandMember, names, expand_eq_of_descent_iff sameBelow]
  · rw [expand_of_closed opened, expand_of_closed (fun way => opened ((same []).mpr way))]
termination_by structures.unvisited path
decreasing_by exact OffsetMap.unvisited_append_lt stored fresh

theorem expanded_iff :
    Expanded structures path identity x ↔
      identity ∈ structures ∧ identity ∉ path ∧ (x = identity ∨
        ∃ child, Names structures identity child ∧
          Expanded structures (path ++ [identity]) child x) := by
  constructor
  · rintro ⟨below, way, mem⟩
    cases below with
    | nil =>
      obtain ⟨stored, fresh⟩ := descent_nil.mp way
      exact ⟨stored, fresh, .inl (List.mem_singleton.mp mem)⟩
    | cons child rest =>
      obtain ⟨stored, fresh, first, way⟩ := descent_cons.mp way
      rcases List.mem_cons.mp mem with same | mem
      · exact ⟨stored, fresh, .inl same⟩
      · exact ⟨stored, fresh, .inr ⟨child, first, rest, way, mem⟩⟩
  · rintro ⟨stored, fresh, rfl | ⟨child, first, rest, way, mem⟩⟩
    · exact ⟨[], descent_nil.mpr ⟨stored, fresh⟩, by simp⟩
    · exact ⟨child :: rest, descent_cons.mpr ⟨stored, fresh, first, way⟩,
        List.mem_cons_of_mem _ mem⟩

theorem cutAbove_iff (above : x ∈ path) :
    CutAbove structures path identity x ↔
      identity ∈ structures ∧ identity ∉ path ∧
        ∃ child, Names structures identity child ∧
          (child = x ∨ CutAbove structures (path ++ [identity]) child x) := by
  have inside : x ∈ path ++ [identity] := List.mem_append_left _ above
  constructor
  · rintro ⟨_, below, way, names⟩
    cases below with
    | nil =>
      obtain ⟨stored, fresh⟩ := descent_nil.mp way
      exact ⟨stored, fresh, x, names, .inl rfl⟩
    | cons child rest =>
      obtain ⟨stored, fresh, first, way⟩ := descent_cons.mp way
      rw [List.getLastD_cons] at names
      exact ⟨stored, fresh, child, first, .inr ⟨inside, rest, way, names⟩⟩
  · rintro ⟨stored, fresh, child, first, rfl | ⟨_, rest, way, names⟩⟩
    · exact ⟨above, [], descent_nil.mpr ⟨stored, fresh⟩, first⟩
    · refine ⟨above, child :: rest, descent_cons.mpr ⟨stored, fresh, first, way⟩, ?_⟩
      rwa [List.getLastD_cons]

/-- A tree that has none of the structures of a path in it is the same below
that path. -/
theorem descent_iff_of_avoids (avoids : ∀ x, Expanded structures [] identity x → x ∉ path) :
    Descent structures path identity below ↔ Descent structures [] identity below := by
  rw [descent_iff_apart]
  constructor
  · exact fun way => way.1
  · exact fun way => ⟨way, fun x mem => avoids x ⟨below, way, mem⟩⟩

/-- A tree that is cut at no structure above it is the same below nothing. -/
theorem descent_iff_of_uncut (fresh : identity ∉ path)
    (uncut : ∀ x, ¬ CutAbove structures path identity x) :
    Descent structures path identity below ↔ Descent structures [] identity below := by
  constructor
  · exact fun way => (descent_iff_apart.mp way).1
  · intro way
    -- The first structure of the path on the way would be a cut of the tree.
    induction below using List.reverseRecOn with
    | nil => exact descent_nil.mpr ⟨(descent_nil.mp way).1, fresh⟩
    | append_singleton below x ih =>
      obtain ⟨start, names, stored, _, new⟩ := descent_concat.mp way
      exact descent_concat.mpr
        ⟨ih start, names, stored, fun above => uncut x ⟨above, below, ih start, names⟩, new⟩

end GlobalMap
