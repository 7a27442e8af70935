import GlobalMap.Proofs.DebugInfo.Alone

/-! What a walk over a tree finds. A walk that meets no damage finds what the reached entries of
its tree give by themselves, one after the other, and nothing of any other entry. Records are thus
exactly what the reached entries give. -/
namespace GlobalMap

variable {encoding : Dwarf.Encoding} {e : Entry} {above : List Entry}

namespace Trail

/-- A walk that was not ended early and found these records. -/
structure Yields (trail : Trail) (records : List Finding) : Prop where
  failure : trail.failure = none
  records : trail.findings.filter Finding.isRecord = records

end Trail

namespace Entry

section Walk

/-- A walk finds what its entries give by themselves, one after the other, if it meets no damage
at any of them, and fails otherwise. -/
structure Walks (encoding : Dwarf.Encoding) (trail : Trail) (entries : List Placed) : Prop where
  intact_iff : trail.failure = none ↔ ∀ p ∈ entries, p.Intact encoding
  findings : trail.failure = none → trail.findings = entries.flatMap (Placed.findings encoding)

theorem walks_nil : Walks encoding {} [] := ⟨by simp, fun _ => rfl⟩

theorem Walks.andThen {first second : Trail} {entries others : List Placed}
    (before : Walks encoding first entries) (after : Walks encoding second others) :
    Walks encoding (first.andThen second) (entries ++ others) := by
  constructor
  · rw [Trail.failure_andThen, before.intact_iff, after.intact_iff, List.forall_mem_append]
  · intro intact
    obtain ⟨front, back⟩ := Trail.failure_andThen.mp intact
    rw [Trail.findings_andThen front, before.findings front, after.findings back,
      List.flatMap_append]

theorem walksAmong {children : List Entry} {level : Int}
    (each : ∀ child ∈ children,
      Walks encoding (child.trail encoding level) ((child.placed above).filter Placed.Reached)) :
    Walks encoding (trailOfChildren encoding level children)
      ((placedAmong above children).filter Placed.Reached) := by
  induction children with
  | nil => exact walks_nil
  | cons child rest ih =>
    rw [trailOfChildren, placedAmong, List.filter_append]
    have first := each child List.mem_cons_self
    exact first.andThen (ih fun other mem => each other (List.mem_cons_of_mem _ mem))

/-- Below a handled entry nothing is reached. -/
theorem filter_below_handled (handled : e.handled) (entries : List Entry) :
    (placedAmong (e :: above) entries).filter Placed.Reached = [] := by
  apply List.filter_eq_nil_iff.mpr
  intro p mem
  rw [decide_eq_true_eq]
  intro isReached
  rw [placedAmong_eq_flatMap] at mem
  obtain ⟨child, _, mem⟩ := List.mem_flatMap.mp mem
  exact isReached e (mem_above_of_mem_placed mem List.mem_cons_self) handled

/-- A reached tree is its root, and then what stands below it. -/
theorem filter_placed (e : Entry) (reached : ∀ a ∈ above, ¬ a.handled) :
    (e.placed above).filter Placed.Reached =
      ⟨e, above⟩ :: (placedAmong (e :: above) e.children).filter Placed.Reached := by
  have isReached : Placed.Reached ⟨e, above⟩ := reached
  rw [placed_eq, List.filter_cons_of_pos (by simpa using isReached)]

theorem trail_eq (encoding : Dwarf.Encoding) (level : Int) (e : Entry) :
    e.trail encoding level = Trail.andThen ⟨[.visited], none⟩
      (match e.ownTrail? encoding level with
      | some own => own
      | none =>
        (trailOfChildren encoding (level + 1) e.children).andThen ⟨[], e.failure⟩) := by
  cases e
  rfl

/-- **A walk finds what is reached.** At a place that is reached itself, the walk over a tree
finds what its reached entries give by themselves, in order. -/
theorem trail_walks (encoding : Dwarf.Encoding) (e : Entry) (above : List Entry)
    (reached : ∀ a ∈ above, ¬ a.handled) :
    Walks encoding (e.trail encoding above.length) ((e.placed above).filter Placed.Reached) := by
  induction e using children_induction generalizing above with
  | step e ih =>
    rw [filter_placed e reached, trail_eq]
    cases own : e.ownTrail? encoding above.length with
    | some trail =>
      have handled : e.handled := by
        by_cases handled : e.handled
        · exact handled
        · rw [ownTrail?_eq_none_iff.mpr handled] at own
          cases own
      have here : Placed.Intact encoding ⟨e, above⟩ ↔ trail.failure = none := by
        rw [Placed.Intact, Placed.level, own]
      have found : Placed.findings encoding ⟨e, above⟩ = .visited :: trail.findings := by
        rw [Placed.findings, Placed.level, own]
        rfl
      rw [filter_below_handled handled]
      constructor
      · simp only [List.forall_mem_singleton, here, Trail.andThen]
      · intro _
        simp only [Trail.andThen, List.flatMap_singleton, found, List.singleton_append]
    | none =>
      have unhandled := ownTrail?_eq_none_iff.mp own
      have next : (above.length : Int) + 1 = (e :: above).length := by simp
      have here : Placed.Intact encoding ⟨e, above⟩ ↔ e.failure = none := by
        rw [Placed.Intact, Placed.level, own]
      have found : Placed.findings encoding ⟨e, above⟩ = [.visited] := by
        rw [Placed.findings, Placed.level, own]
        rfl
      -- The root joins the entries above, none of which is handled.
      have below : Walks encoding (trailOfChildren encoding (e :: above).length e.children)
          ((placedAmong (e :: above) e.children).filter Placed.Reached) :=
        walksAmong fun child mem => ih child mem (e :: above)
          (List.forall_mem_cons.mpr ⟨unhandled, reached⟩)
      rw [next]
      constructor
      · rw [Trail.failure_andThen, Trail.failure_andThen, below.intact_iff, List.forall_mem_cons,
          here]
        constructor
        · rintro ⟨_, all, ended⟩
          exact ⟨ended, all⟩
        · rintro ⟨ended, all⟩
          exact ⟨rfl, all, ended⟩
      · intro intact
        have inner := (Trail.failure_andThen.mp (Trail.failure_andThen.mp intact).2).1
        rw [Trail.findings_andThen rfl, Trail.findings_andThen inner, below.findings inner,
          List.append_nil, List.flatMap_cons, found]

end Walk

/-- A walk over an undamaged tree records exactly what the reached entries of the tree give. -/
theorem trail_yields (encoding : Dwarf.Encoding) (e : Entry) (above : List Entry)
    (undamaged : ∀ p ∈ e.placed above, p.entry.Undamaged) (reached : ∀ a ∈ above, ¬ a.handled) :
    (e.trail encoding above.length).Yields (recordsAmong encoding (e.placed above)) := by
  have walks := trail_walks encoding e above reached
  have each : ∀ p ∈ (e.placed above).filter Placed.Reached, p.Intact encoding := fun p mem =>
    Placed.intact_of_undamaged p (undamaged p (List.mem_filter.mp mem).1)
  have intact := walks.intact_iff.mpr each
  refine ⟨intact, ?_⟩
  rw [walks.findings intact, recordsAmong]
  exact Placed.filter_flatMap_findings _ each

end Entry

end GlobalMap
