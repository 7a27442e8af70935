import GlobalMap.Proofs.DebugInfo.Settled
import GlobalMap.Proofs.Session.Runs

/-! What a session can say about what it left out. Collecting takes progress further by the units of
the file and by the entries that were visited, and a strict session collects a file if and only if
every reached entry of it is settled. So what is missing from a map was either counted, or nothing
that a map could have shown. -/
namespace GlobalMap

namespace DebugInfo

/-- The number of entries that a walk over a file visits: those that are reached, and the children
of structures. -/
def visited (info : DebugInfo) : Nat :=
  info.reached.length + (info.reached.flatMap fun x => x.placed.parts).length

end DebugInfo

namespace Session

theorem entries_addUnits {s : Survey} (units : List DebugUnit)
    (ended : ∀ u ∈ units, u.trail.failure = none) :
    (s.addUnits units).1.entries = s.entries + visits units := by
  induction units generalizing s with
  | nil => rfl
  | cons u rest ih =>
    obtain ⟨here, others⟩ := List.forall_mem_cons.mp ended
    simp only [Survey.addUnits, here]
    rw [ih others, visits_cons, ← Nat.add_assoc]
    rfl

theorem visits_eq {info : DebugInfo} (decodes : info.Decodes) :
    visits info.units = info.visited := by
  have counted := entries_addUnits (s := {}) info.units decodes.1
  have reached := (Survey.add_covers (s := {}) info decodes).2.entries_eq
  exact (Nat.zero_add _).symm.trans (counted.symm.trans reached)

/-- A strict session collects what nothing was left out of. -/
theorem collected_isOk_iff {s : Session} (strict : s.strict = true) (survey : Survey) :
    (∃ graph, s.collected survey = .ok graph) ↔ survey.omissions = [] := by
  unfold collected
  rw [strict]
  cases survey.omissions with
  | nil => exact ⟨fun _ => rfl, fun _ => ⟨_, rfl⟩⟩
  | cons o rest => exact ⟨fun ⟨_, same⟩ => (by cases same), fun same => (by cases same)⟩

/-- **No entry is lost silently.** Over files that are walked to their end, and in which no reached
entry has the offset of another, a survey accounts for every reached entry. A session that holds one
of the files counts its units and the visited entries, whatever its progress was before, and if it
is strict then it collects the file exactly when every reached entry is settled. -/
theorem nothing_lost (sources : List DebugInfo) (decode : ∀ info ∈ sources, info.Decodes)
    (distinct : ((sources.flatMap DebugInfo.reached).map fun x => x.entry.offset).Nodup) :
    (Survey.addAll {} sources).2 = none ∧
      (Survey.addAll {} sources).1.Accounts (sources.flatMap DebugInfo.reached) ∧
      (Survey.addAll {} sources).1.units = (sources.flatMap DebugInfo.units).length ∧
      ∀ info ∈ sources, ∀ s : Session, s.debugInfo = some info →
        Runs collect s (s.collected (Survey.add {} info).1)
            (s.counted info.units.length info.visited) ∧
          (s.strict = true →
            ((∃ graph, s.collected (Survey.add {} info).1 = .ok graph) ↔
              ∀ x ∈ info.reached, x.Settled (Survey.add {} info).1.graph)) := by
  obtain ⟨none, covers⟩ := Survey.addAll_covers (s := {}) sources decode
  refine ⟨none, covers.accounts distinct, ?_, ?_⟩
  · rw [covers.after_eq]
    exact Nat.zero_add _
  · intro info mem s held
    have decodes := decode info mem
    have here : (info.reached.map fun x => x.entry.offset).Nodup := by
      obtain ⟨earlier, later, parts⟩ := List.append_of_mem mem
      rw [parts, List.flatMap_append, List.flatMap_cons] at distinct
      have part : info.reached.Sublist (earlier.flatMap DebugInfo.reached ++
          (info.reached ++ later.flatMap DebugInfo.reached)) :=
        (List.sublist_append_left _ _).trans (List.sublist_append_right _ _)
      exact (part.map _).nodup distinct
    have settled := (Survey.add_covers (s := {}) info decodes).2.omissions_eq_nil_iff here
    have runs := runs_collect held decodes.1 decodes.2
    rw [visits_eq decodes] at runs
    exact ⟨runs, fun strict => (collected_isOk_iff strict _).trans settled⟩

/-- A unit with a qualifier that has no type and a variable that is defined elsewhere. -/
def externUnit : DebugUnit where
  top := .ok {
    tag := "DW_TAG_compile_unit"
    offset := 111
    children := [
      { tag := "DW_TAG_const_type", offset := 120 },
      { tag := "DW_TAG_variable", offset := 130, name := .value "errno", typeRef := .value 20,
        declared := true }] }

/-- A file with a member that is left out, and one of which nothing is due. -/
def twoFiles : List DebugInfo :=
  [⟨[Survey.pointUnit], none⟩, ⟨[externUnit], none⟩]

/-- A strict session over the second file. -/
def externSession : Session where
  input := {}
  strict := true
  debugInfo := some ⟨[externUnit], none⟩

theorem decodes_twoFiles : ∀ info ∈ twoFiles, info.Decodes := by
  have undamaged : ∀ info ∈ twoFiles, info.Undamaged := by decide
  exact fun info mem => DebugInfo.decodes_of_undamaged (undamaged info mem)

theorem nothing_lost_twoFiles :
    (∀ info ∈ twoFiles, info.Decodes) ∧
      ((twoFiles.flatMap DebugInfo.reached).map fun x => x.entry.offset).Nodup ∧
      (Survey.addAll {} twoFiles).1.Accounts (twoFiles.flatMap DebugInfo.reached) ∧
      Runs collect externSession
        (externSession.collected (Survey.add {} ⟨[externUnit], none⟩).1)
        (externSession.counted 1 3) ∧
      ((∃ graph, externSession.collected (Survey.add {} ⟨[externUnit], none⟩).1 = .ok graph) ↔
        ∀ x ∈ DebugInfo.reached ⟨[externUnit], none⟩,
          x.Settled (Survey.add {} ⟨[externUnit], none⟩).1.graph) := by
  have distinct : ((twoFiles.flatMap DebugInfo.reached).map fun x => x.entry.offset).Nodup := by
    decide
  obtain ⟨_, accounts, _, sessions⟩ := nothing_lost twoFiles decodes_twoFiles distinct
  obtain ⟨runs, strict⟩ := sessions ⟨[externUnit], none⟩ (.tail _ (.head _)) externSession rfl
  exact ⟨decodes_twoFiles, distinct, accounts, runs, strict rfl⟩

end Session

end GlobalMap
