import Mathlib.Data.List.Dedup
import Mathlib.Data.List.Perm.Subperm
import GlobalMap.Proofs.TypeGraph.Questions

/-! Where the nodes of a tree of members stand. A node has an address, its place among the members
at each level. An address also leads through a structure map, from member to member, whether or not
a tree was ever made; a tree has a node there exactly when no structure is met twice on the way. -/
namespace GlobalMap

variable {structures : OffsetMap Structure} {path way : List Int} {identity child : Int}
  {address : List Nat} {m : Member}

/-- The node at an address, which gives its place at each level, the outermost first. -/
def nodeAt? (fields : List Member) : List Nat → Option Member
  | [] => none
  | [place] => fields[place]?
  | place :: next :: rest => fields[place]?.bind fun m => nodeAt? m.fields (next :: rest)

/-- An address leads from a structure to a member. On the way stand the structures whose members
the address counts, the outermost first; each one is stored and named by the member before it. -/
inductive Addressed (structures : OffsetMap Structure) :
    Int → List Nat → List Int → Member → Prop where
  | last {identity : Int} {s : Structure} {place : Nat} {m : Member}
      (held : structures[identity]? = some s) (listed : s.members[place]? = some m) :
      Addressed structures identity [place] [identity] m
  | onward {identity child : Int} {s : Structure} {place : Nat} {m found : Member}
      {address : List Nat} {way : List Int}
      (held : structures[identity]? = some s) (listed : s.members[place]? = some m)
      (names : named? structures m.typeRef = some child)
      (rest : Addressed structures child address way found) :
      Addressed structures identity (place :: address) (identity :: way) found

/-- The identities of stored structures, each one once. -/
def identities (structures : OffsetMap Structure) : List Int :=
  (structures.toList.map fun row => row.2.identity).dedup

theorem addressed_unique {other : List Int} {m' : Member}
    (first : Addressed structures identity address way m)
    (second : Addressed structures identity address other m') : way = other ∧ m = m' := by
  induction first generalizing other m' with
  | last held listed =>
    cases second with
    | last held' listed' =>
      rw [held] at held'
      cases held'
      rw [listed] at listed'
      cases listed'
      exact ⟨rfl, rfl⟩
    | onward _ _ _ rest => nomatch rest
  | onward held listed names rest ih =>
    cases second with
    | last _ _ => nomatch rest
    | onward held' listed' names' rest' =>
      rw [held] at held'
      cases held'
      rw [listed] at listed'
      cases listed'
      rw [names] at names'
      cases names'
      obtain ⟨rfl, rfl⟩ := ih rest'
      exact ⟨rfl, rfl⟩

theorem length_of_addressed (leads : Addressed structures identity address way m) :
    way.length = address.length := by
  induction leads with
  | last _ _ => rfl
  | onward _ _ _ _ ih => rw [List.length_cons, List.length_cons, ih]

theorem mem_identities {offset : Int} {s : Structure} (held : structures[offset]? = some s) :
    s.identity ∈ identities structures := by
  apply List.mem_dedup.mpr
  exact List.mem_map_of_mem (Std.ExtTreeMap.mem_toList_iff_getElem?_eq_some.mpr held)

theorem mem_identities_of_named {typeRef : Int} (names : named? structures typeRef = some child) :
    child ∈ identities structures := by
  obtain ⟨s, held, rfl⟩ := Option.map_eq_some_iff.mp names
  exact mem_identities held

/-- Below a root that some structure has as its identity, only identities are met. -/
theorem subset_of_addressed (leads : Addressed structures identity address way m)
    (root : identity ∈ identities structures) : way ⊆ identities structures := by
  induction leads with
  | last _ _ => exact List.cons_subset.mpr ⟨root, List.nil_subset _⟩
  | onward _ _ names _ ih => exact List.cons_subset.mpr ⟨root, ih (mem_identities_of_named names)⟩

/-- The way to a member without a repeat is a way down, and the member belongs to the structure
that it ends at. -/
theorem descent_of_addressed (leads : Addressed structures identity address way m)
    (simple : way.Nodup) : ∃ below s, way = identity :: below ∧
      Descent structures [] identity below ∧
      structures[below.getLastD identity]? = some s ∧ m ∈ s.members := by
  induction leads with
  | @last identity s place m held listed =>
    refine ⟨[], s, rfl, descent_nil.mpr ⟨OffsetMap.mem_of_lookup held, List.not_mem_nil⟩, held, ?_⟩
    exact List.mem_of_getElem? listed
  | @onward identity child s place m found address way held listed names rest ih =>
    obtain ⟨new, simple⟩ := List.nodup_cons.mp simple
    obtain ⟨below, t, rfl, down, heldLast, mem⟩ := ih simple
    have apart : Descent structures [identity] child below := by
      refine descent_iff_apart.mpr ⟨down, fun x inside same => ?_⟩
      exact new (List.mem_singleton.mp same ▸ inside)
    have first := names_of_member held (List.mem_of_getElem? listed) names
    refine ⟨child :: below, t, rfl, descent_cons.mpr ?_, ?_, mem⟩
    · exact ⟨OffsetMap.mem_of_lookup held, List.not_mem_nil, first, apart⟩
    · rwa [List.getLastD_cons]

/-- A place in the tree of a structure is one among the members it is stored with. -/
theorem getElem?_expand {place : Nat} {node : Member} :
    (expand structures path identity)[place]? = some node ↔
      identity ∉ path ∧ ∃ s m, structures[identity]? = some s ∧ s.members[place]? = some m ∧
        expandMember structures (path ++ [identity]) m = node := by
  by_cases seen : identity ∈ path
  · simp [expand_of_mem seen, seen]
  · cases held : structures[identity]? with
    | none => simp [expand_of_none held]
    | some s =>
      rw [expand_of_fresh seen held, List.getElem?_map, Option.map_eq_some_iff]
      simp [seen]

theorem nodeAt?_nil (address : List Nat) : nodeAt? [] address = none := by
  match address with
  | [] => rfl
  | [_] => rfl
  | _ :: _ :: _ => rfl

/-- Below a node stands the tree of the structure that its member names. -/
theorem nodeAt?_fields (address : List Nat) {node : Member} :
    nodeAt? (expandMember structures path m).fields address = some node ↔
      ∃ child, named? structures m.typeRef = some child ∧
        nodeAt? (expand structures path child) address = some node := by
  unfold expandMember
  cases named? structures m.typeRef with
  | none => simp [Member.bare, nodeAt?_nil]
  | some child => simp

/-- A tree has a node where an address leads on a way that meets no structure twice and none of
the path. The node is the member there, below the path and the way. -/
theorem nodeAt?_expand {node : Member} :
    nodeAt? (expand structures path identity) address = some node ↔
      ∃ way m, Addressed structures identity address way m ∧ way.Nodup ∧ (∀ x ∈ way, x ∉ path) ∧
        expandMember structures (path ++ way) m = node := by
  induction address generalizing path identity with
  | nil =>
    simp only [nodeAt?, reduceCtorEq, false_iff]
    rintro ⟨_, _, leads, _⟩
    nomatch leads
  | cons place below ih =>
    cases below with
    | nil =>
      rw [nodeAt?, getElem?_expand]
      constructor
      · rintro ⟨fresh, s, m, held, listed, rfl⟩
        exact ⟨[identity], m, .last held listed, by simp, by simpa using fresh, rfl⟩
      · rintro ⟨_, m, leads, _, apart, rfl⟩
        cases leads with
        | last held listed => exact ⟨apart identity (by simp), _, m, held, listed, rfl⟩
        | onward _ _ _ rest => nomatch rest
    | cons next rest =>
      rw [nodeAt?, Option.bind_eq_some_iff]
      constructor
      · rintro ⟨_, first, found⟩
        obtain ⟨fresh, s, m, held, listed, rfl⟩ := getElem?_expand.mp first
        obtain ⟨child, names, found⟩ := (nodeAt?_fields _).mp found
        obtain ⟨way, last, leads, simple, apart, rfl⟩ := ih.mp found
        simp only [List.mem_append, List.mem_singleton, not_or] at apart
        refine ⟨identity :: way, last, .onward held listed names leads, ?_, ?_, ?_⟩
        · exact List.nodup_cons.mpr ⟨fun mem => (apart identity mem).2 rfl, simple⟩
        · exact List.forall_mem_cons.mpr ⟨fresh, fun x mem => (apart x mem).1⟩
        · rw [List.append_cons]
      · rintro ⟨_, last, leads, simple, apart, rfl⟩
        cases leads with
        | @onward _ child s _ m _ _ way held listed names leads =>
          obtain ⟨fresh, apart⟩ := List.forall_mem_cons.mp apart
          obtain ⟨new, simple⟩ := List.nodup_cons.mp simple
          refine ⟨_, getElem?_expand.mpr ⟨fresh, s, m, held, listed, rfl⟩,
            (nodeAt?_fields _).mpr ⟨child, names, ih.mpr ⟨way, last, leads, simple, ?_, ?_⟩⟩⟩
          · intro x mem above
            rcases List.mem_append.mp above with onPath | same
            · exact apart x mem onPath
            · exact new (List.mem_singleton.mp same ▸ mem)
          · rw [← List.append_cons]

/-- The tree of a structure below nothing. -/
theorem nodeAt?_root {node : Member} :
    nodeAt? (expand structures [] identity) address = some node ↔
      ∃ way m, Addressed structures identity address way m ∧ way.Nodup ∧
        expandMember structures way m = node := by
  simp only [nodeAt?_expand, List.not_mem_nil, not_false_eq_true, implies_true, true_and,
    List.nil_append]

/-- Expanding adds fields to a member and changes nothing else about it. -/
theorem expandMember_carries (structures : OffsetMap Structure) (path : List Int) (m : Member) :
    (expandMember structures path m).name = m.name ∧
      (expandMember structures path m).typeRef = m.typeRef ∧
      (expandMember structures path m).offset = m.offset := by
  unfold expandMember
  split <;> exact ⟨rfl, rfl, rfl⟩

/-- A structure that is not on the way gives all its members, in order. -/
theorem fields_of_fresh {t : Structure} (names : named? structures m.typeRef = some child)
    (held : structures[child]? = some t) (fresh : child ∉ path) :
    (expandMember structures path m).fields.map Member.bare = t.members.map Member.bare := by
  have fields : (expandMember structures path m).fields = expand structures path child := by
    simp only [expandMember, names]
  rw [fields, expand_of_fresh fresh held, List.map_map]
  exact List.map_congr_left fun m _ => bare_expandMember structures _ m

/-- Only such a structure gives any. -/
theorem fresh_of_fields (filled : (expandMember structures path m).fields ≠ []) :
    ∃ child t, named? structures m.typeRef = some child ∧ structures[child]? = some t ∧
      child ∉ path := by
  unfold expandMember at filled
  cases names : named? structures m.typeRef with
  | none => simp [names, Member.bare] at filled
  | some child =>
    simp only [names] at filled
    cases held : structures[child]? with
    | none => exact absurd (expand_of_none held) filled
    | some t => exact ⟨child, t, rfl, held, fun seen => filled (expand_of_mem seen)⟩

/-- A tree of members holds the ways from a structure that meet no structure twice, all of them
and nothing else. -/
structure HoldsSimpleWays (structures : OffsetMap Structure) (identity : Int)
    (fields : List Member) : Prop where
  /-- A node stands where an address leads without meeting a structure twice. -/
  stands : ∀ address, (∃ node, nodeAt? fields address = some node) ↔
    ∃ way m, Addressed structures identity address way m ∧ way.Nodup
  /-- A node is the member that its address leads to. -/
  carries : ∀ address node way m, nodeAt? fields address = some node →
    Addressed structures identity address way m →
      node.name = m.name ∧ node.typeRef = m.typeRef ∧ node.offset = m.offset
  /-- Fields are all the members of the structure that a node's type names, and it is not being
  expanded already. -/
  whole : ∀ address node way m, nodeAt? fields address = some node →
    Addressed structures identity address way m → node.fields ≠ [] →
      ∃ child t, named? structures node.typeRef = some child ∧ child ∉ way ∧ way.Nodup ∧
        structures[child]? = some t ∧ node.fields.map Member.bare = t.members.map Member.bare
  /-- Only a structure that is being expanded already is left out. -/
  complete : ∀ address node way m child t, nodeAt? fields address = some node →
    Addressed structures identity address way m → named? structures node.typeRef = some child →
      structures[child]? = some t → child ∉ way →
        node.fields.map Member.bare = t.members.map Member.bare
  /-- No address is longer than there are identities. -/
  shallow : ∀ address node, nodeAt? fields address = some node →
    address.length ≤ (identities structures).length

/-- A node is the member that its address leads to, below the way there. -/
theorem node_eq {node : Member}
    (found : nodeAt? (expand structures [] identity) address = some node)
    (leads : Addressed structures identity address way m) :
    node = expandMember structures way m ∧ way.Nodup := by
  obtain ⟨_, _, leads', simple, rfl⟩ := nodeAt?_root.mp found
  obtain ⟨rfl, rfl⟩ := addressed_unique leads leads'
  exact ⟨rfl, simple⟩

theorem length_le_of_node {node : Member} (root : identity ∈ identities structures)
    (found : nodeAt? (expand structures [] identity) address = some node) :
    address.length ≤ (identities structures).length := by
  obtain ⟨way, m, leads, simple, _⟩ := nodeAt?_root.mp found
  rw [← length_of_addressed leads]
  exact (List.subperm_of_subset simple (subset_of_addressed leads root)).length_le

/-- Plain expansion follows every way until it would meet a structure again. -/
theorem expand_holdsSimpleWays (root : identity ∈ identities structures) :
    HoldsSimpleWays structures identity (expand structures [] identity) where
  stands := by
    intro address
    constructor
    · rintro ⟨node, found⟩
      obtain ⟨way, m, leads, simple, _⟩ := nodeAt?_root.mp found
      exact ⟨way, m, leads, simple⟩
    · rintro ⟨way, m, leads, simple⟩
      exact ⟨_, nodeAt?_root.mpr ⟨way, m, leads, simple, rfl⟩⟩
  carries := by
    intro address node way m found leads
    obtain ⟨rfl, _⟩ := node_eq found leads
    exact expandMember_carries structures way m
  whole := by
    intro address node way m found leads filled
    obtain ⟨rfl, simple⟩ := node_eq found leads
    obtain ⟨child, t, names, held, fresh⟩ := fresh_of_fields filled
    rw [(expandMember_carries structures way m).2.1]
    exact ⟨child, t, names, fresh, simple, held, fields_of_fresh names held fresh⟩
  complete := by
    intro address node way m child t found leads names held fresh
    obtain ⟨rfl, _⟩ := node_eq found leads
    rw [(expandMember_carries structures way m).2.1] at names
    exact fields_of_fresh names held fresh
  shallow := fun _ _ found => length_le_of_node root found

namespace Flattener

variable {root : Int} {s : Structure}

/-- **The nodes of a tree are the simple ways down.** Whatever has been asked before, the members
of a stored structure are given, and their tree has a node exactly where an address leads on a way
that meets no structure twice. -/
theorem membersAt?_holdsSimpleWays (held : structures[root]? = some s) (questions : List Question) :
    ∃ fields after,
      membersAt? structures (askAll structures {} questions).2 root = some (fields, after) ∧
        HoldsSimpleWays structures s.identity fields := by
  have empty : Sound structures {} := sound_empty
  have sound := (askAll_sound questions {} empty).2
  obtain ⟨after, answered, _⟩ := membersAt?_plain sound held
  exact ⟨_, after, answered, expand_holdsSimpleWays (mem_identities held)⟩

/-- Two structures that refer to each other, each one through an alias of the other. -/
def mutualStructures : OffsetMap Structure :=
  ((((∅ : OffsetMap Structure).insert 10 ⟨some "left", 10, [⟨"right", 30, 0, []⟩]⟩).insert
    11 ⟨some "Left", 10, [⟨"right", 30, 0, []⟩]⟩).insert
    12 ⟨none, 12, [⟨"left", 11, 0, []⟩, ⟨"count", 1, 8, []⟩]⟩).insert
    30 ⟨some "Right", 12, [⟨"left", 11, 0, []⟩, ⟨"count", 1, 8, []⟩]⟩

theorem membersAt?_holdsSimpleWays_mutual :
    mutualStructures[(30 : Int)]? =
        some ⟨some "Right", 12, [⟨"left", 11, 0, []⟩, ⟨"count", 1, 8, []⟩]⟩ ∧
      ∃ fields after,
        membersAt? mutualStructures
            (askAll mutualStructures {} [.members 10, .members 7, .all]).2 30 =
          some (fields, after) ∧
        HoldsSimpleWays mutualStructures 12 fields :=
  have held : mutualStructures[(30 : Int)]? =
      some ⟨some "Right", 12, [⟨"left", 11, 0, []⟩, ⟨"count", 1, 8, []⟩]⟩ := by
    simp [mutualStructures]
  ⟨held, membersAt?_holdsSimpleWays held [.members 10, .members 7, .all]⟩

end Flattener

end GlobalMap
