import Mathlib.Data.Finset.Card
import GlobalMap.Proofs.TypeGraph.Meaning

/-! The orbit of an offset: the offset itself, the target of its typedef or qualifier, the target of
that, and so on, as far as there are targets. It is said here without links and without a record of
what has been visited. An orbit ends, or it comes back to one of its offsets; following an offset
tells which, and passes every offset of the orbit once on the way. -/
namespace GlobalMap.TypeGraph

variable {graph : TypeGraph} {offset target : Int} {name : Option String}

/-- The target of a typedef, or of a qualifier where there is no typedef. -/
def target? (graph : TypeGraph) (offset : Int) : Option Int :=
  match graph.typedefs[offset]? with
  | some definition => some definition.target
  | none => graph.qualifiers[offset]?

/-- The offset so many targets further on, if there are so many. -/
def after? (graph : TypeGraph) : Nat → Int → Option Int
  | 0, offset => some offset
  | count + 1, offset => (graph.target? offset).bind (graph.after? count)

/-- The name of the first typedef among so many offsets of an orbit. -/
def firstName? (graph : TypeGraph) (count : Nat) (offset : Int) : Option String :=
  (List.range count).findSome? fun i =>
    (graph.after? i offset).bind fun passed =>
      graph.typedefs[passed]?.map TypeDefinition.name

/-- An orbit that has one of its offsets at two places. -/
def Revisits (graph : TypeGraph) (offset : Int) : Prop :=
  ∃ i j again, i < j ∧ graph.after? i offset = some again ∧ graph.after? j offset = some again

/-- The offsets that are typedefs or qualifiers. One that is both counts once. -/
def aliasOffsets (graph : TypeGraph) : Finset Int :=
  (graph.typedefs.keys ++ graph.qualifiers.keys).toFinset

/-! ## Orbits and links -/

theorem target?_of_link {link : Link} (held : graph.link? offset = some link) :
    graph.target? offset = some link.target ∧
      graph.typedefs[offset]?.map TypeDefinition.name = link.name := by
  unfold link? at held
  unfold target?
  cases typed : graph.typedefs[offset]? with
  | some definition =>
    simp only [typed, Option.some.injEq] at held
    simp [← held]
  | none =>
    simp only [typed, Option.map_eq_some_iff] at held
    obtain ⟨target, qualified, rfl⟩ := held
    simp [qualified]

theorem target?_of_unlinked (unlinked : graph.link? offset = none) :
    graph.target? offset = none := by
  unfold link? at unlinked
  unfold target?
  cases typed : graph.typedefs[offset]? with
  | some definition => simp [typed] at unlinked
  | none => simpa [typed] using unlinked

theorem mem_aliasOffsets_of_link {link : Link} (held : graph.link? offset = some link) :
    offset ∈ graph.aliasOffsets := by
  simp only [aliasOffsets, List.mem_toFinset, List.mem_append, Std.ExtTreeMap.mem_keys]
  by_contra neither
  rw [unlinked_iff.mpr neither] at held
  cases held

theorem after?_of_link {link : Link} (held : graph.link? offset = some link) (count : Nat) :
    graph.after? (count + 1) offset = graph.after? count link.target := by
  rw [after?, (target?_of_link held).1, Option.bind_some]

theorem after?_of_unlinked (unlinked : graph.link? offset = none) (count : Nat) :
    graph.after? (count + 1) offset = none := by
  rw [after?, target?_of_unlinked unlinked, Option.bind_none]

theorem firstName?_of_link {link : Link} (held : graph.link? offset = some link) (count : Nat) :
    graph.firstName? (count + 1) offset = link.name.or (graph.firstName? count link.target) := by
  have named := (target?_of_link held).2
  rw [firstName?, List.range_succ_eq_map, List.findSome?_cons, List.findSome?_map]
  simp only [after?, Option.bind_some, named, (target?_of_link held).1, Function.comp_def]
  cases link.name <;> rfl

/-! ## Orbits that end -/

/-- Links lead to the end of an orbit, and past nothing but its offsets. -/
theorem leads_iff {count : Nat} : Leads graph count offset target name ↔
    graph.after? count offset = some target ∧ graph.link? target = none ∧
      name = graph.firstName? count offset := by
  induction count generalizing offset name with
  | zero =>
    constructor
    · intro leads
      cases leads with
      | here unlinked => exact ⟨rfl, unlinked, rfl⟩
    · rintro ⟨same, unlinked, rfl⟩
      cases same
      exact .here unlinked
  | succ count ih =>
    constructor
    · intro leads
      cases leads with
      | step held rest =>
        obtain ⟨reached, unlinked, rfl⟩ := ih.mp rest
        exact ⟨(after?_of_link held count).trans reached, unlinked,
          (firstName?_of_link held count).symm⟩
    · rintro ⟨reached, unlinked, rfl⟩
      cases held : graph.link? offset with
      | none => rw [after?_of_unlinked held] at reached; cases reached
      | some link =>
        rw [after?_of_link held] at reached
        rw [firstName?_of_link held]
        exact .step held (ih.mpr ⟨reached, unlinked, rfl⟩)

/-- Where an orbit ends, all its offsets lead to the end, each from its own distance. -/
theorem leads_of_after? {count i : Nat} {passed : Int}
    (leads : Leads graph count offset target name) (reached : graph.after? i offset = some passed) :
    ∃ rest later, count = i + rest ∧ Leads graph rest passed target later := by
  induction i generalizing count offset name with
  | zero =>
    cases reached
    exact ⟨count, name, (Nat.zero_add count).symm, leads⟩
  | succ i ih =>
    cases leads with
    | here unlinked => rw [after?_of_unlinked unlinked] at reached; cases reached
    | step held rest =>
      rw [after?_of_link held] at reached
      obtain ⟨left, later, rfl, leads⟩ := ih rest reached
      exact ⟨left, later, Nat.add_right_comm i left 1, leads⟩

/-- An orbit that ends never comes back: the same offset cannot be at two distances from the
end. -/
theorem not_revisits_of_leads {count : Nat} (leads : Leads graph count offset target name) :
    ¬ graph.Revisits offset := by
  rintro ⟨i, j, again, before, first, second⟩
  obtain ⟨left, _, total, leadsFirst⟩ := leads_of_after? leads first
  obtain ⟨left', _, total', leadsSecond⟩ := leads_of_after? leads second
  obtain ⟨same, _⟩ := leads_unique leadsFirst leadsSecond
  omega

/-! ## The offsets that are passed -/

/-- The offset at which following stops. -/
def Chain.last : Chain → Int
  | .ends target _ => target
  | .loops offset => offset

/-- Where following links leads, and the offsets whose links are followed on the way, in order. -/
def traceFrom (graph : TypeGraph) (visited : List Int) (name : Option String) (offset : Int) :
    Chain × List Int :=
  match _held : graph.link? offset with
  | none => (.ends offset name, [])
  | some link =>
    if _seen : offset ∈ visited then (.loops offset, [])
    else
      let (chain, later) := traceFrom graph (offset :: visited) (name.or link.name) link.target
      (chain, offset :: later)
termination_by graph.unvisitedLinks visited
decreasing_by exact unvisitedLinks_cons_lt _held _seen

/-- Following an offset, with the offsets that are passed on the way. -/
def trace (graph : TypeGraph) (offset : Int) : Chain × List Int :=
  graph.traceFrom [] none offset

theorem traceFrom_unlinked {visited : List Int} {first : Option String}
    (unlinked : graph.link? offset = none) :
    graph.traceFrom visited first offset = (.ends offset first, []) := by
  rw [traceFrom]
  split
  · rfl
  · rename_i held
    rw [unlinked] at held
    cases held

theorem traceFrom_link {visited : List Int} {first : Option String} {link : Link}
    (held : graph.link? offset = some link) :
    graph.traceFrom visited first offset =
      if offset ∈ visited then (.loops offset, [])
      else
        let rest := graph.traceFrom (offset :: visited) (first.or link.name) link.target
        (rest.1, offset :: rest.2) := by
  rw [traceFrom]
  split
  · rename_i unlinked
    rw [held] at unlinked
    cases unlinked
  · rename_i link' held'
    rw [held] at held'
    cases held'
    rfl

/-- A trace leads where following leads. -/
theorem traceFrom_fst (visited : List Int) (first : Option String) (offset : Int) :
    (graph.traceFrom visited first offset).1 = graph.followFrom visited first offset := by
  induction visited, first, offset using followFrom.induct graph with
  | case1 visited first offset unlinked =>
    rw [traceFrom_unlinked unlinked, followFrom_unlinked unlinked]
  | case2 visited first offset link held seen =>
    rw [traceFrom_link held, followFrom_link held, if_pos seen, if_pos seen]
  | case3 visited first offset link held new ih =>
    rw [traceFrom_link held, followFrom_link held, if_neg new, if_neg new]
    exact ih

/-- What is passed of an orbit before following stops, and where it stops. -/
structure Traced (graph : TypeGraph) (visited : List Int) (offset : Int) (chain : Chain)
    (passed : List Int) : Prop where
  orbit : ∀ i < passed.length, passed[i]? = graph.after? i offset
  last : graph.after? passed.length offset = some chain.last
  fresh : ∀ o ∈ passed, o ∉ visited
  nodup : passed.Nodup
  aliases : ∀ o ∈ passed, o ∈ graph.aliasOffsets
  back : ∀ again, chain = .loops again → again ∈ visited ∨ again ∈ passed

/-- Following may stop at once: where there is no link, or one that has been visited. -/
theorem traced_nil {visited : List Int} {chain : Chain} (here : chain.last = offset)
    (back : ∀ again, chain = .loops again → again ∈ visited) :
    Traced graph visited offset chain [] where
  orbit := fun i below => absurd below (Nat.not_lt_zero i)
  last := congrArg some here.symm
  fresh := fun _ mem => absurd mem List.not_mem_nil
  nodup := List.nodup_nil
  aliases := fun _ mem => absurd mem List.not_mem_nil
  back := fun again loops => .inl (back again loops)

/-- One link more in front. -/
theorem Traced.cons {visited passed : List Int} {chain : Chain} {link : Link}
    (held : graph.link? offset = some link) (new : offset ∉ visited)
    (later : Traced graph (offset :: visited) link.target chain passed) :
    Traced graph visited offset chain (offset :: passed) where
  orbit := by
    intro i below
    cases i with
    | zero => rfl
    | succ i =>
      rw [List.getElem?_cons_succ, after?_of_link held]
      exact later.orbit i (Nat.lt_of_succ_lt_succ below)
  last := by
    rw [List.length_cons, after?_of_link held]
    exact later.last
  fresh := by
    intro o mem
    rcases List.mem_cons.mp mem with rfl | mem
    · exact new
    · exact fun seen => later.fresh o mem (List.mem_cons_of_mem _ seen)
  nodup := List.nodup_cons.mpr
    ⟨fun mem => later.fresh offset mem List.mem_cons_self, later.nodup⟩
  aliases := List.forall_mem_cons.mpr ⟨mem_aliasOffsets_of_link held, later.aliases⟩
  back := by
    intro again loops
    have seen := later.back again loops
    simp only [List.mem_cons] at seen ⊢
    rcases seen with (same | old) | mem
    · exact .inr (.inl same)
    · exact .inl old
    · exact .inr (.inr mem)

theorem traceFrom_traced (visited : List Int) (first : Option String) (offset : Int) :
    Traced graph visited offset (graph.traceFrom visited first offset).1
      (graph.traceFrom visited first offset).2 := by
  induction visited, first, offset using followFrom.induct graph with
  | case1 visited first offset unlinked =>
    rw [traceFrom_unlinked unlinked]
    exact traced_nil rfl fun again loops => by cases loops
  | case2 visited first offset link held seen =>
    rw [traceFrom_link held, if_pos seen]
    refine traced_nil rfl fun again loops => ?_
    cases loops
    exact seen
  | case3 visited first offset link held new ih =>
    rw [traceFrom_link held, if_neg new]
    exact ih.cons held new

theorem trace_traced (graph : TypeGraph) (offset : Int) :
    Traced graph [] offset (graph.follow offset) (graph.trace offset).2 := by
  have traced : Traced graph [] offset (graph.trace offset).1 (graph.trace offset).2 :=
    traceFrom_traced [] none offset
  have same : (graph.trace offset).1 = graph.follow offset := traceFrom_fst [] none offset
  rwa [same] at traced

/-- Where following comes back, the orbit does: the last target leads to an offset that has been
passed. -/
theorem revisits_of_loops {again : Int} (loops : graph.follow offset = .loops again) :
    graph.Revisits offset := by
  have traced := trace_traced graph offset
  have reached := traced.last
  rw [loops] at reached
  have passed := (traced.back again loops).resolve_left List.not_mem_nil
  obtain ⟨i, below, here⟩ := List.mem_iff_getElem.mp passed
  refine ⟨i, (graph.trace offset).2.length, again, below, ?_, reached⟩
  rw [← traced.orbit i below, List.getElem?_eq_getElem below, here]

/-- **Following ends or tells a loop, whatever the graph.** It ends at an offset exactly where the
orbit does, under the name of the first typedef on the way, and it tells a loop exactly where the
orbit comes back to one of its offsets. What is passed is the orbit up to the offset at which
following stops, no offset twice, so there are no more links to follow than there are typedefs and
qualifiers. -/
theorem follow_tells_orbit (graph : TypeGraph) (offset : Int) :
    (∀ target name, graph.follow offset = .ends target name ↔
      ∃ count, graph.after? count offset = some target ∧
        ¬ (target ∈ graph.typedefs ∨ target ∈ graph.qualifiers) ∧
        name = graph.firstName? count offset) ∧
    ((∃ again, graph.follow offset = .loops again) ↔ graph.Revisits offset) ∧
    (graph.trace offset).1 = graph.follow offset ∧
    (∀ i < (graph.trace offset).2.length, (graph.trace offset).2[i]? = graph.after? i offset) ∧
    graph.after? (graph.trace offset).2.length offset = some (graph.follow offset).last ∧
    (graph.trace offset).2.Nodup ∧
    (graph.trace offset).2.length ≤ graph.aliasOffsets.card := by
  have traced := trace_traced graph offset
  refine ⟨fun target name => ?_, ⟨?_, ?_⟩, traceFrom_fst [] none offset, traced.orbit, traced.last,
    traced.nodup, ?_⟩
  · simp only [follow_ends_iff, leads_iff, unlinked_iff]
  · rintro ⟨again, loops⟩
    exact revisits_of_loops loops
  · intro revisits
    cases followed : graph.follow offset with
    | loops again => exact ⟨again, rfl⟩
    | ends target name =>
      obtain ⟨count, leads⟩ := follow_ends_iff.mp followed
      exact absurd revisits (not_revisits_of_leads leads)
  · rw [← List.toFinset_card_of_nodup traced.nodup]
    apply Finset.card_le_card
    intro o mem
    exact traced.aliases o (List.mem_toFinset.mp mem)

end GlobalMap.TypeGraph
