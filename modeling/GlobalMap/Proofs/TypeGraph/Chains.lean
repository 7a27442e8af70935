import GlobalMap.TypeGraph.Alias

/-! Where links lead. `Leads` says it without a record of visited offsets; following
agrees with it, since an offset that comes round again never leads anywhere. -/
namespace GlobalMap.TypeGraph

variable {graph other : TypeGraph} {offset target : Int} {name : Option String}

/-- Some number of links lead from an offset to one that is no link. The name is
that of the first typedef among them. -/
inductive Leads (graph : TypeGraph) : Nat → Int → Int → Option String → Prop where
  | here {offset : Int} (unlinked : graph.link? offset = none) : Leads graph 0 offset offset none
  | step {count : Nat} {offset target : Int} {link : Link} {name : Option String}
      (held : graph.link? offset = some link) (rest : Leads graph count link.target target name) :
      Leads graph (count + 1) offset target (link.name.or name)

theorem leads_unique {count count' : Nat} {target' : Int} {name' : Option String}
    (first : Leads graph count offset target name)
    (second : Leads graph count' offset target' name') :
    count = count' ∧ target = target' ∧ name = name' := by
  induction first generalizing count' target' name' with
  | here unlinked =>
    cases second with
    | here => exact ⟨rfl, rfl, rfl⟩
    | step held => rw [unlinked] at held; cases held
  | step held _ ih =>
    cases second with
    | here unlinked => rw [unlinked] at held; cases held
    | step held' rest =>
      rw [held] at held'
      cases held'
      obtain ⟨rfl, rfl, rfl⟩ := ih rest
      exact ⟨rfl, rfl, rfl⟩

theorem link_of_leads {count : Nat} (leads : Leads graph count offset target name) :
    graph.link? target = none := by
  induction leads with
  | here unlinked => exact unlinked
  | step _ _ ih => exact ih

theorem followFrom_unlinked {visited : List Int} {first : Option String}
    (unlinked : graph.link? offset = none) :
    graph.followFrom visited first offset = .ends offset first := by
  rw [followFrom]
  split
  · rfl
  · rename_i held
    rw [unlinked] at held
    cases held

theorem followFrom_link {visited : List Int} {first : Option String} {link : Link}
    (held : graph.link? offset = some link) :
    graph.followFrom visited first offset =
      if offset ∈ visited then .loops offset
      else graph.followFrom (offset :: visited) (first.or link.name) link.target := by
  rw [followFrom]
  split
  · rename_i unlinked
    rw [held] at unlinked
    cases unlinked
  · rename_i link' held'
    rw [held] at held'
    cases held'
    rfl

/-- Visited offsets that lead on from further away never come round. -/
theorem followFrom_of_leads {count : Nat} (leads : Leads graph count offset target name)
    (visited : List Int) (first : Option String)
    (further : ∀ v ∈ visited, ∃ more t n, count < more ∧ Leads graph more v t n) :
    graph.followFrom visited first offset = .ends target (first.or name) := by
  induction leads generalizing visited first with
  | here unlinked => rw [followFrom_unlinked unlinked, Option.or_none]
  | @step count offset target link name held rest ih =>
    have new : offset ∉ visited := by
      intro seen
      obtain ⟨more, t, n, later, leads⟩ := further offset seen
      obtain ⟨same, _⟩ := leads_unique (.step held rest) leads
      omega
    rw [followFrom_link held, if_neg new, ih, Option.or_assoc]
    intro v mem
    rcases List.mem_cons.mp mem with rfl | mem
    · exact ⟨count + 1, target, _, Nat.lt_succ_self count, .step held rest⟩
    · obtain ⟨more, t, n, later, leads⟩ := further v mem
      exact ⟨more, t, n, Nat.lt_of_succ_lt later, leads⟩

theorem leads_of_followFrom (visited : List Int) (first : Option String) (offset : Int)
    (ends : graph.followFrom visited first offset = .ends target name) :
    ∃ count rest, Leads graph count offset target rest ∧ name = first.or rest := by
  induction visited, first, offset using followFrom.induct graph with
  | case1 visited first offset unlinked =>
    rw [followFrom_unlinked unlinked] at ends
    cases ends
    exact ⟨0, none, .here unlinked, Option.or_none.symm⟩
  | case2 visited first offset link held seen =>
    rw [followFrom_link held, if_pos seen] at ends
    cases ends
  | case3 visited first offset link held new ih =>
    rw [followFrom_link held, if_neg new] at ends
    obtain ⟨count, rest, leads, named⟩ := ih ends
    exact ⟨count + 1, link.name.or rest, .step held leads, by rw [named, Option.or_assoc]⟩

/-- Following an offset ends exactly where its links lead. -/
theorem follow_ends_iff :
    graph.follow offset = .ends target name ↔ ∃ count, Leads graph count offset target name := by
  constructor
  · intro ends
    obtain ⟨count, rest, leads, named⟩ := leads_of_followFrom [] none offset ends
    exact ⟨count, by rwa [named, Option.none_or]⟩
  · rintro ⟨count, leads⟩
    rw [follow, followFrom_of_leads leads [] none (by simp), Option.none_or]

theorem follow_unlinked (unlinked : graph.link? offset = none) :
    graph.follow offset = .ends offset none :=
  followFrom_unlinked unlinked

/-- A chain ends at an offset that is no link. -/
theorem link_of_follow (ends : graph.follow offset = .ends target name) :
    graph.link? target = none := by
  obtain ⟨_, leads⟩ := follow_ends_iff.mp ends
  exact link_of_leads leads

/-- A link ends where its target does, under its own name if it has one. -/
theorem follow_link_iff {link : Link} (held : graph.link? offset = some link) :
    graph.follow offset = .ends target name ↔
      ∃ rest, graph.follow link.target = .ends target rest ∧ name = link.name.or rest := by
  rw [follow_ends_iff]
  constructor
  · rintro ⟨count, leads⟩
    cases leads with
    | here unlinked => rw [held] at unlinked; cases unlinked
    | step held' rest =>
      rw [held] at held'
      cases held'
      exact ⟨_, follow_ends_iff.mpr ⟨_, rest⟩, rfl⟩
  · rintro ⟨rest, ends, rfl⟩
    obtain ⟨count, leads⟩ := follow_ends_iff.mp ends
    exact ⟨count + 1, .step held leads⟩

/-- Only the links of a graph matter for where they lead. -/
theorem follow_congr (same : ∀ offset, graph.link? offset = other.link? offset) (offset : Int) :
    graph.follow offset = other.follow offset := by
  unfold follow
  generalize [] = visited, none = first
  induction visited, first, offset using followFrom.induct graph with
  | case1 visited first offset unlinked =>
    have unlinked' : other.link? offset = none := (same offset).symm.trans unlinked
    rw [followFrom_unlinked unlinked, followFrom_unlinked unlinked']
  | case2 visited first offset link held seen =>
    have held' : other.link? offset = some link := (same offset).symm.trans held
    rw [followFrom_link held, followFrom_link held', if_pos seen, if_pos seen]
  | case3 visited first offset link held new ih =>
    have held' : other.link? offset = some link := (same offset).symm.trans held
    rw [followFrom_link held, if_neg new, ih, followFrom_link held', if_neg new]

end GlobalMap.TypeGraph
