import GlobalMap.Proofs.DebugInfo.Conservation
import GlobalMap.Proofs.TypeGraph.Variables

/-! The order of units. What the entries of all units give goes into the same tables, and a
reference may lead from any unit into any other; but where no two entries have the same offset a
table does not tell in which order its rows came, and resolution looks at tables alone. So units in
another order give the same types and the same counts, and of variables and their entries the lists
of each unit, in that other order. -/
namespace GlobalMap

/-! ## Counts -/

namespace Omission

/-- Two omissions are counted in either order. -/
theorem count_right_comm (counts : Std.ExtTreeMap String Nat) (o p : Omission) :
    (counts.insert o.kind (counts.getD o.kind 0 + 1)).insert p.kind
        ((counts.insert o.kind (counts.getD o.kind 0 + 1)).getD p.kind 0 + 1) =
      (counts.insert p.kind (counts.getD p.kind 0 + 1)).insert o.kind
        ((counts.insert p.kind (counts.getD p.kind 0 + 1)).getD o.kind 0 + 1) := by
  apply Std.ExtTreeMap.ext_getElem?
  intro kind
  simp only [Std.ExtTreeMap.getElem?_insert, Std.ExtTreeMap.getD_insert, Std.compare_eq_iff_eq]
  by_cases same : o.kind = p.kind
  · rw [same]
  · rw [if_neg same, if_neg (Ne.symm same)]
    by_cases first : o.kind = kind
    · have second : p.kind ≠ kind := fun equal => same (first.trans equal.symm)
      rw [if_neg second, if_pos first, if_pos first]
    · rw [if_neg first, if_neg first]

/-- Omissions are summed up in any order. -/
theorem tally_perm {omissions others : List Omission} (perm : others.Perm omissions) :
    tally others = tally omissions :=
  perm.foldl_eq' (fun o _ p _ counts => count_right_comm counts o p) ∅

end Omission

/-! ## Units in another order -/

namespace DebugUnit

/-- The global variables that a walk over a unit finds, in order. -/
def globals (u : DebugUnit) : List Variable :=
  u.trail.findings.filterMap Finding.global?

end DebugUnit

namespace DebugInfo

/-- A file with its units in another order. -/
def inOrder (info : DebugInfo) (order : List DebugUnit) : DebugInfo :=
  { info with units := order }

variable {info : DebugInfo} {order : List DebugUnit}

theorem decodes_inOrder (perm : order.Perm info.units) : (info.inOrder order).Decodes ↔
    info.Decodes := by
  have units : (∀ u ∈ order, u.trail.failure = none) ↔ ∀ u ∈ info.units, u.trail.failure = none :=
    forall_congr' fun u => imp_congr perm.mem_iff Iff.rfl
  exact and_congr units Iff.rfl

/-- The findings of a file that is walked to its end, unit by unit. -/
theorem findings_reached (decodes : info.Decodes) :
    info.reached.flatMap Site.findings = info.units.flatMap fun u => u.trail.findings := by
  rw [reached, List.flatMap_assoc]
  apply List.flatMap_congr
  intro u mem
  exact (DebugUnit.findings_eq (decodes.1 u mem)).1.symm

end DebugInfo

namespace Survey

theorem addUnits_failure {s : Survey} (units : List DebugUnit)
    (ended : (s.addUnits units).2 = none) : ∀ u ∈ units, u.trail.failure = none := by
  induction units generalizing s with
  | nil =>
    intro u mem
    cases mem
  | cons u rest ih =>
    rw [addUnits] at ended
    cases failure : u.trail.failure with
    | some damage =>
      simp only [failure] at ended
      cases ended
    | none =>
      simp only [failure] at ended
      exact List.forall_mem_cons.mpr ⟨failure, ih ended⟩

/-- A survey of a file meets no damage if there is none to be met. -/
theorem add_failure_eq_none_iff {s : Survey} {info : DebugInfo} :
    (s.add info).2 = none ↔ info.Decodes := by
  refine ⟨fun ended => ?_, fun decodes => (add_covers info decodes).1⟩
  obtain ⟨units, complete⟩ := Option.or_eq_none_iff.mp ended
  exact ⟨addUnits_failure info.units units, Option.map_eq_none_iff.mp complete⟩

/-- A survey of a file as one step. -/
theorem add_eq_addWalk {s : Survey} {info : DebugInfo} (decodes : info.Decodes) :
    (s.add info).1 =
      s.addWalk (info.units.flatMap fun u => u.trail.findings) info.units.length := by
  rw [← DebugInfo.findings_reached decodes]
  exact (add_covers info decodes).2.after_eq

/-- A survey is another one over the same units in some order. Its types are the same, it left out
as much of each kind, and it went over as many units and entries; its variables and its map are what
each unit has of them, unit by unit. -/
structure Reorders (s t : Survey) (order : List DebugUnit) : Prop where
  graph : t.graph = s.graph.withVariables (order.flatMap DebugUnit.globals)
  omitted : Omission.tally t.omissions = Omission.tally s.omissions
  units : t.units = s.units
  entries : t.entries = s.entries
  resolved : t.graph.resolve.graph =
    s.graph.resolve.graph.withVariables t.graph.resolve.graph.globals
  map : t.graph.resolve.graph.entries =
    order.flatMap fun u => (s.graph.withVariables u.globals).resolve.graph.entries

section Units

variable {info : DebugInfo} {order : List DebugUnit}

/-- Findings in another order make the same graph but for the order of its variables. -/
theorem addFindings_perm {findings others : List Finding} (perm : others.Perm findings)
    (keys : ∀ {α : Type} {pick : Finding → Option (Int × α)} {role : Role},
      Finding.Table pick role → ((findings.filterMap pick).map Prod.fst).Nodup) :
    (({} : Survey).addFindings others).graph =
      (({} : Survey).addFindings findings).graph.withVariables
        (others.filterMap Finding.global?) := by
  simp only [addFindings, TypeGraph.withVariables,
    OffsetMap.insertMany_perm (keys Finding.table_baseType) (perm.filterMap _),
    OffsetMap.insertMany_perm (keys Finding.table_typeDefinition) (perm.filterMap _),
    OffsetMap.insertMany_perm (keys Finding.table_structure) (perm.filterMap _),
    OffsetMap.insertMany_perm (keys Finding.table_qualifier) (perm.filterMap _),
    List.nil_append]

theorem add_reorders (decodes : info.Decodes)
    (distinct : (info.reached.map fun x => x.entry.offset).Nodup)
    (perm : order.Perm info.units) :
    Reorders (Survey.add {} info).1 (Survey.add {} (info.inOrder order)).1 order := by
  have intact := (add_covers (s := {}) info decodes).2.intact
  have found := perm.flatMap_right fun u => u.trail.findings
  have before := add_eq_addWalk (s := {}) decodes
  have after := add_eq_addWalk (s := {}) ((DebugInfo.decodes_inOrder perm).mpr decodes)
  have globals : (order.flatMap fun u => u.trail.findings).filterMap Finding.global? =
      order.flatMap DebugUnit.globals := List.filterMap_flatMap
  have graph : (Survey.add {} (info.inOrder order)).1.graph =
      (Survey.add {} info).1.graph.withVariables (order.flatMap DebugUnit.globals) := by
    rw [before, after, ← globals]
    refine addFindings_perm found fun table => ?_
    rw [← DebugInfo.findings_reached decodes]
    exact table.nodup_keys intact distinct
  constructor
  case graph => exact graph
  case omitted =>
    rw [before, after]
    exact Omission.tally_perm (found.filterMap Finding.omission?)
  case units =>
    rw [before, after]
    exact congrArg (0 + ·) perm.length_eq
  case entries =>
    rw [before, after]
    exact congrArg (0 + ·) (found.countP_eq Finding.isVisit)
  case resolved =>
    rw [graph, TypeGraph.resolve_withVariables]
    rfl
  case map => rw [graph, TypeGraph.entries_resolve_flatMap]

end Units

/-- **The order of units shows in the order of variables alone.** A file whose units stand in
another order is damaged if it was before. If it is not, and no two of its reached entries have the
same offset, a survey of it collects the same types and counts the same omissions, units and
entries. In either order the variables, and the map of the resolved graph, are the lists of the
units one after the other, and each unit has the same lists in both. -/
theorem add_inOrder (info : DebugInfo) (order : List DebugUnit) (perm : order.Perm info.units) :
    ((Survey.add {} (info.inOrder order)).2 = none ↔ (Survey.add {} info).2 = none) ∧
      ((Survey.add {} info).2 = none →
        (info.reached.map fun x => x.entry.offset).Nodup →
          Reorders (Survey.add {} info).1 (Survey.add {} info).1 info.units ∧
            Reorders (Survey.add {} info).1 (Survey.add {} (info.inOrder order)).1 order) := by
  constructor
  · rw [add_failure_eq_none_iff, add_failure_eq_none_iff, DebugInfo.decodes_inOrder perm]
  · intro ended distinct
    have decodes := add_failure_eq_none_iff.mp ended
    exact ⟨add_reorders decodes distinct (.refl _), add_reorders decodes distinct perm⟩

/-- A unit with a structure whose member has a type of the other unit. -/
def nodeUnit : DebugUnit where
  top := .ok {
    tag := "DW_TAG_compile_unit"
    offset := 11
    children := [
      { tag := "DW_TAG_structure_type", offset := 20, name := .value "node", children := [
          { tag := "DW_TAG_member", offset := 30, name := .value "next", typeRef := .value 120,
            memberLocation := .value (.constant 0) }] },
      { tag := "DW_TAG_variable", offset := 40, name := .value "head", typeRef := .value 120,
        location := .value (.program [0x03, 0, 1, 0, 0]) }] }

/-- A unit with a name for that structure, and with a variable that has no location. -/
def nameUnit : DebugUnit where
  top := .ok {
    tag := "DW_TAG_compile_unit"
    offset := 111
    children := [
      { tag := "DW_TAG_typedef", offset := 120, name := .value "Node", typeRef := .value 20 },
      { tag := "DW_TAG_variable", offset := 130, name := .value "tail", typeRef := .value 20,
        location := .value (.program [0x03, 0, 2, 0, 0]) },
      { tag := "DW_TAG_variable", offset := 140, name := .value "spare", typeRef := .value 20 }] }

/-- Two units that refer to each other. -/
theorem add_inOrder_swapped : [nameUnit, nodeUnit].Perm [nodeUnit, nameUnit] ∧
    (Survey.add {} ⟨[nodeUnit, nameUnit], none⟩).2 = none ∧
    ((DebugInfo.reached ⟨[nodeUnit, nameUnit], none⟩).map fun x => x.entry.offset).Nodup ∧
    (Survey.add {} ⟨[nameUnit, nodeUnit], none⟩).2 = none ∧
    Reorders (Survey.add {} ⟨[nodeUnit, nameUnit], none⟩).1
      (Survey.add {} ⟨[nodeUnit, nameUnit], none⟩).1 [nodeUnit, nameUnit] ∧
    Reorders (Survey.add {} ⟨[nodeUnit, nameUnit], none⟩).1
      (Survey.add {} ⟨[nameUnit, nodeUnit], none⟩).1 [nameUnit, nodeUnit] := by
  have perm : [nameUnit, nodeUnit].Perm [nodeUnit, nameUnit] := List.Perm.swap _ _ _
  have undamaged : DebugInfo.Undamaged ⟨[nodeUnit, nameUnit], none⟩ := by decide
  have ended : (Survey.add {} ⟨[nodeUnit, nameUnit], none⟩).2 = none :=
    add_failure_eq_none_iff.mpr (DebugInfo.decodes_of_undamaged undamaged)
  have distinct :
      ((DebugInfo.reached ⟨[nodeUnit, nameUnit], none⟩).map fun x => x.entry.offset).Nodup := by
    decide
  obtain ⟨damage, reorders⟩ := add_inOrder ⟨[nodeUnit, nameUnit], none⟩ _ perm
  exact ⟨perm, ended, distinct, damage.mpr ended, reorders ended distinct⟩

end Survey

end GlobalMap
