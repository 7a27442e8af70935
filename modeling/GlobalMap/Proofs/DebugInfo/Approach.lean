import GlobalMap.DebugInfo.Survey
import GlobalMap.Proofs.DebugInfo.Walked

/-! Walks that may not end. Of entries that lead around in circles more and more may be held, and a
walk over them then finds more and more but never gets to an end. One walk approaches another if it
is the same once it ends. -/
namespace GlobalMap

/-! ## Walks -/

/-- A walk is another one, unless it does not end. -/
def Trail.Approaches (t t' : Trail) : Prop :=
  t.failure = some .endless ∨ t = t'

namespace Trail

variable {t t' t'' : Trail}

theorem Approaches.refl (t : Trail) : t.Approaches t :=
  .inr rfl

theorem Approaches.trans (first : t.Approaches t') (second : t'.Approaches t'') :
    t.Approaches t'' := by
  rcases first with endless | rfl
  · exact .inl endless
  · exact second

theorem Approaches.ends (approaches : t.Approaches t') (ends : t.failure ≠ some .endless) :
    t = t' :=
  approaches.resolve_left ends

theorem failure_andThen_of_endless (endless : t.failure = some .endless) (rest : Trail) :
    (t.andThen rest).failure = some .endless := by
  rw [andThen, endless]
  exact endless

theorem Approaches.andThen {rest rest' : Trail} (first : t.Approaches t')
    (second : rest.Approaches rest') : (t.andThen rest).Approaches (t'.andThen rest') := by
  rcases first with endless | rfl
  · exact .inl (failure_andThen_of_endless endless rest)
  · rcases second with endless | rfl
    · cases failure : t.failure with
      | none =>
        refine .inl ?_
        rw [Trail.andThen, failure]
        exact endless
      | some hindrance =>
        refine .inr ?_
        rw [Trail.andThen, Trail.andThen, failure]
    · exact .refl _

theorem andThen_assoc (t t' t'' : Trail) :
    (t.andThen t').andThen t'' = t.andThen (t'.andThen t'') := by
  unfold andThen
  cases first : t.failure with
  | some hindrance => simp only [first]
  | none =>
    cases second : t'.failure with
    | some hindrance => simp only [second]
    | none => simp only [List.append_assoc]

/-- Whether a walk ends does not depend on what else may end it. -/
theorem failure_andThen_eq_endless_iff :
    (t.andThen t').failure = some .endless ↔
      t.failure = some .endless ∨ (t.failure = none ∧ t'.failure = some .endless) := by
  unfold andThen
  cases failure : t.failure with
  | some hindrance => simp [failure]
  | none => simp

end Trail

/-! ## Entries -/

namespace Entry

variable {encoding : Dwarf.Encoding} {e e' : Entry}

/-- An entry without what stands below it. -/
def bare (e : Entry) : Entry :=
  { e with children := [], failure := none }

/-- What a walk finds at an entry does not depend on what stands below it, unless it is a
structure. -/
theorem ownTrail?_bare (level : Int) (other : e.role ≠ .aggregate) :
    e.bare.ownTrail? encoding level = e.ownTrail? encoding level := by
  have same : e.bare.role = e.role := rfl
  unfold ownTrail?
  rw [same]
  cases kind : e.role with
  | aggregate => exact absurd kind other
  | _ => rfl

theorem flatMap_findChild_bare (children : List Entry) :
    (children.map bare).flatMap (findChild encoding) = children.flatMap (findChild encoding) := by
  rw [List.flatMap_map]
  rfl

theorem membersAmong_bare (children : List Entry) :
    membersAmong encoding (children.map bare) = membersAmong encoding children := by
  rw [membersAmong, List.filterMap_map]
  rfl

/-- The children of two entries, taken by themselves, are the same unless those of the first have no
end. -/
def ChildrenApproach (e e' : Entry) : Prop :=
  e.failure = some .endless ∨
    (e.failure = e'.failure ∧ e.children.map bare = e'.children.map bare)

theorem structureTrail_approaches (same : e.bare = e'.bare) (children : e.ChildrenApproach e') :
    (e.structureTrail encoding).Approaches (e'.structureTrail encoding) := by
  rcases children with endless | ⟨failure, children⟩
  · exact .inl (Trail.failure_andThen_of_endless endless _)
  · have found : e.children.flatMap (findChild encoding) =
        e'.children.flatMap (findChild encoding) := by
      rw [← flatMap_findChild_bare, children, flatMap_findChild_bare]
    have members : membersAmong encoding e.children = membersAmong encoding e'.children := by
      rw [← membersAmong_bare, children, membersAmong_bare]
    have name : e.bare.name = e'.bare.name := congrArg Entry.name same
    have offset : e.bare.offset = e'.bare.offset := congrArg Entry.offset same
    change e.name = e'.name at name
    change e.offset = e'.offset at offset
    refine .inr ?_
    simp only [structureTrail, asStructure, found, members, name, offset, failure]

/-- The walk over the children of an entry, up to their end. -/
def trailBelow (encoding : Dwarf.Encoding) (level : Int) (e : Entry) : Trail :=
  (trailOfChildren encoding level e.children).andThen ⟨[], e.failure⟩

/-- A walk over an entry approaches another one if the walks below it do. -/
theorem trail_approaches (level : Int) (same : e.bare = e'.bare) (children : e.ChildrenApproach e')
    (below : (e.trailBelow encoding (level + 1)).Approaches (e'.trailBelow encoding (level + 1))) :
    (e.trail encoding level).Approaches (e'.trail encoding level) := by
  have role : e.bare.role = e'.bare.role := congrArg Entry.role same
  change e.role = e'.role at role
  rw [trail_eq, trail_eq]
  refine (Trail.Approaches.refl _).andThen ?_
  by_cases kind : e.role = .aggregate
  · simp only [ownTrail?, kind, role ▸ kind]
    exact structureTrail_approaches same children
  · have own : e.ownTrail? encoding level = e'.ownTrail? encoding level := by
      rw [← ownTrail?_bare level kind, same, ownTrail?_bare level (role ▸ kind)]
    rw [own]
    cases e'.ownTrail? encoding level with
    | some own => exact .refl own
    | none => exact below

/-! Below the top of a unit all levels are alike. -/

theorem ownTrail?_deep {level : Int} (deep : 2 ≤ level) (e : Entry) :
    e.ownTrail? encoding level = e.ownTrail? encoding 2 := by
  have here : maxGlobalLevel < level := by
    rw [maxGlobalLevel]
    omega
  unfold ownTrail? variableTrail
  rw [if_pos here, if_pos (by decide)]

mutual

theorem trail_deep {level : Int} (deep : 2 ≤ level) : ∀ e : Entry,
    e.trail encoding level = e.trail encoding 2
  | ⟨tag, offset, name, typeRef, location, memberLocation, declared, specification, children,
      failure⟩ => by
    have below : trailOfChildren encoding (level + 1) children =
        trailOfChildren encoding (2 + 1) children :=
      (trailOfChildren_deep (by omega) children).trans
        (trailOfChildren_deep (by decide) children).symm
    rw [trail_eq, trail_eq, ownTrail?_deep deep, below]

theorem trailOfChildren_deep {level : Int} (deep : 2 ≤ level) : ∀ children : List Entry,
    trailOfChildren encoding level children = trailOfChildren encoding 2 children
  | [] => rfl
  | child :: rest => by
    rw [trailOfChildren, trailOfChildren, trail_deep deep child, trailOfChildren_deep deep rest]

end

end Entry

/-! ## Surveys -/

/-- Over units that are walked alike, unless a walk does not end, surveys are alike unless the first
does not end. -/
theorem Survey.addUnits_approaches {α : Type} {first second : α → DebugUnit} (units : List α)
    (each : ∀ u ∈ units, (first u).trail.Approaches (second u).trail) (s : Survey) :
    (s.addUnits (units.map first)).2 = some .endless ∨
      s.addUnits (units.map first) = s.addUnits (units.map second) := by
  induction units generalizing s with
  | nil => exact .inr rfl
  | cons u units ih =>
    obtain ⟨here, others⟩ := List.forall_mem_cons.mp each
    rw [List.map_cons, List.map_cons, addUnits, addUnits]
    rcases here with endless | same
    · refine .inl ?_
      simp only [endless]
    · rw [← same]
      cases (first u).trail.failure with
      | some hindrance => exact .inr rfl
      | none => exact ih others _

end GlobalMap
