import GlobalMap.DebugInfo.Survey
import GlobalMap.MapFile.Document
import GlobalMap.Proofs.DebugInfo.Collected
import GlobalMap.Proofs.TypeGraph.Relocation

/-! A unit may stand anywhere among the entries of a file. Where its offsets and references are all
replaced along a function, a walk finds the same with the offsets replaced, and reasons and
locations stay what they are. So a survey gathers the graph whose offsets are replaced, and the map
is the same to the last character. -/
namespace GlobalMap

variable {f : Int → Int}

/-! ## Entries -/

/-- An attribute with its value, if it has one, replaced. -/
def Attribute.map {α β : Type} (g : α → β) : Attribute α → Attribute β
  | .absent => .absent
  | .value a => .value (g a)
  | .unreadable reason => .unreadable reason

theorem Attribute.read_map {α β : Type} (g : α → β) (a : Attribute α) :
    (a.map g).read = a.read.map (Option.map g) := by
  cases a <;> rfl

/-- A declaration with its offset and its type replaced. -/
def Declaration.relocate (f : Int → Int) (d : Declaration) : Declaration :=
  { d with offset := f d.offset, typeRef := d.typeRef.map f }

namespace Entry

mutual

/-- An entry with its offset and references, and those of all entries below it, replaced. -/
def relocate (f : Int → Int) : Entry → Entry
  | ⟨tag, offset, name, typeRef, location, memberLocation, declared, specification, children,
      failure⟩ =>
    ⟨tag, f offset, name, typeRef.map f, location, memberLocation, declared,
      specification.map (Except.map (Declaration.relocate f)), relocateAll f children, failure⟩

def relocateAll (f : Int → Int) : List Entry → List Entry
  | [] => []
  | e :: rest => relocate f e :: relocateAll f rest

end

theorem relocateAll_eq_map (entries : List Entry) :
    relocateAll f entries = entries.map (relocate f) := by
  induction entries with
  | nil => rfl
  | cons e rest ih => rw [relocateAll, ih, List.map_cons]

theorem relocate_eq (e : Entry) : e.relocate f = { e with
    offset := f e.offset
    typeRef := e.typeRef.map f
    specification := e.specification.map (Except.map (Declaration.relocate f))
    children := e.children.map (relocate f) } := by
  cases e
  rw [relocate, relocateAll_eq_map]

end Entry

/-- A unit with every offset in it replaced. -/
def DebugUnit.relocate (f : Int → Int) (u : DebugUnit) : DebugUnit :=
  { u with offset := f u.offset, top := u.top.map (Entry.relocate f) }

/-- The units of a file with every offset in them replaced. -/
def DebugInfo.relocate (f : Int → Int) (info : DebugInfo) : DebugInfo :=
  { info with units := info.units.map (DebugUnit.relocate f) }

/-! ## Findings -/

/-- A finding with its offsets replaced. The reason of an omission is left as it is. -/
def Finding.relocate (f : Int → Int) : Finding → Finding
  | .visited => .visited
  | .baseType offset name => .baseType (f offset) name
  | .typeDefinition offset definition => .typeDefinition (f offset) (definition.relocate f)
  | .qualifier offset target => .qualifier (f offset) (f target)
  | .aggregate s => .aggregate (s.relocate f)
  | .global v => .global (v.relocate f)
  | .omitted o => .omitted { o with offset := f o.offset }

namespace Trail

/-- A walk whose findings have their offsets replaced. -/
def relocate (f : Int → Int) (trail : Trail) : Trail :=
  { trail with findings := trail.findings.map (Finding.relocate f) }

theorem relocate_andThen (first second : Trail) :
    (first.andThen second).relocate f = (first.relocate f).andThen (second.relocate f) := by
  cases first with
  | mk findings failure =>
    cases failure with
    | some damage => rfl
    | none =>
      simp only [andThen, relocate, List.map_append]

end Trail

namespace Entry

variable {encoding : Dwarf.Encoding}

theorem nameAndType_relocate (e : Entry) :
    (e.relocate f).nameAndType = e.nameAndType.map fun row => (row.1, row.2.map f) := by
  rw [relocate_eq, nameAndType, nameAndType, Attribute.read_map]
  cases e.name.read with
  | error reason => rfl
  | ok name =>
    cases e.typeRef.read with
    | error reason => rfl
    | ok typeRef => rfl

theorem findBaseType_relocate (e : Entry) :
    (e.relocate f).findBaseType = e.findBaseType.relocate f := by
  rw [relocate_eq, findBaseType, findBaseType]
  cases e.name.read with
  | error reason => rfl
  | ok name => cases name <;> rfl

theorem findTypeDefinition_relocate (e : Entry) :
    (e.relocate f).findTypeDefinition = e.findTypeDefinition.relocate f := by
  have read := nameAndType_relocate (f := f) e
  rw [findTypeDefinition, findTypeDefinition, read, relocate_eq]
  cases e.nameAndType with
  | error reason => rfl
  | ok row =>
    obtain ⟨name, typeRef⟩ := row
    cases name <;> cases typeRef <;> rfl

theorem findQualifier_relocate (e : Entry) :
    (e.relocate f).findQualifier = e.findQualifier.map (Finding.relocate f) := by
  rw [relocate_eq, findQualifier, findQualifier, Attribute.read_map]
  cases e.typeRef.read with
  | error reason => rfl
  | ok typeRef => cases typeRef <;> rfl

theorem asMember_relocate (e : Entry) :
    (e.relocate f).asMember encoding = (e.asMember encoding).map (Member.relocate f) := by
  have read := nameAndType_relocate (f := f) e
  rw [asMember, asMember, read, relocate_eq]
  cases e.nameAndType with
  | error reason => rfl
  | ok row =>
    obtain ⟨name, typeRef⟩ := row
    cases e.memberLocation.read with
    | error reason => rfl
    | ok place =>
      cases name <;> cases typeRef <;> cases place <;> try rfl
      -- All three are there, so the place decides.
      rename_i name typeRef place
      change (offsetOf encoding place >>= fun offset =>
          pure ({ name, typeRef := f typeRef, offset } : Member)) =
        (offsetOf encoding place >>= fun offset =>
          pure ({ name, typeRef, offset } : Member)).map (Member.relocate f)
      cases offsetOf encoding place <;> rfl

theorem role_relocate (e : Entry) : (e.relocate f).role = e.role := by
  rw [relocate_eq]
  rfl

theorem findChild_relocate (child : Entry) :
    (child.relocate f).findChild encoding =
      (child.findChild encoding).map (Finding.relocate f) := by
  rw [findChild, findChild, role_relocate, asMember_relocate]
  by_cases member : child.role = .member
  · rw [if_pos member, if_pos member]
    cases child.asMember encoding with
    | error reason =>
      rw [relocate_eq]
      rfl
    | ok m => rfl
  · rw [if_neg member, if_neg member]
    rfl

theorem membersAmong_relocate (children : List Entry) :
    membersAmong encoding (children.map (relocate f)) =
      (membersAmong encoding children).map (Member.relocate f) := by
  rw [membersAmong, membersAmong, List.filterMap_map, List.map_filterMap]
  congr 1
  funext child
  rw [Function.comp_apply, role_relocate, asMember_relocate]
  by_cases member : child.role = .member
  · rw [if_pos member, if_pos member]
    cases child.asMember encoding <;> rfl
  · rw [if_neg member, if_neg member]
    rfl

theorem asStructure_relocate (e : Entry) :
    (e.relocate f).asStructure encoding = (e.asStructure encoding).relocate f := by
  rw [relocate_eq]
  simp only [asStructure, membersAmong_relocate, Structure.relocate]

theorem structureTrail_relocate (e : Entry) :
    (e.relocate f).structureTrail encoding = (e.structureTrail encoding).relocate f := by
  have children : (e.relocate f).children.flatMap (findChild encoding) =
      (e.children.flatMap (findChild encoding)).map (Finding.relocate f) := by
    rw [relocate_eq, List.flatMap_map, List.map_flatMap]
    simp only [findChild_relocate]
  have failure : (e.relocate f).failure = e.failure := by rw [relocate_eq]
  rw [structureTrail, structureTrail, Trail.andFind, Trail.andFind, Trail.relocate_andThen,
    asStructure_relocate, children, failure]
  rfl

/-- The name stays, and the type is replaced wherever it comes from. -/
theorem identityOf_relocate (e : Entry) :
    (e.relocate f).identityOf = e.identityOf.map fun row => (row.1, row.2.map f) := by
  have read := nameAndType_relocate (f := f) e
  have specification : (e.relocate f).specification =
      e.specification.map (Except.map (Declaration.relocate f)) := by rw [relocate_eq]
  rw [identityOf, identityOf, read, specification]
  cases e.nameAndType with
  | error reason => rfl
  | ok row =>
    obtain ⟨name, typeRef⟩ := row
    cases e.specification with
    | absent => cases name <;> cases typeRef <;> rfl
    | unreadable reason => cases name <;> cases typeRef <;> rfl
    | value followed =>
      cases followed with
      | error damage => cases name <;> cases typeRef <;> rfl
      | ok declaration =>
        obtain ⟨offset, declaredName, declaredType⟩ := declaration
        cases name <;> cases typeRef <;> cases declaredName <;> cases declaredType <;> rfl

theorem asVariable_relocate (e : Entry) :
    (e.relocate f).asVariable encoding =
      (e.asVariable encoding).map (Option.map (Variable.relocate f)) := by
  have identity := identityOf_relocate (f := f) e
  have location : (e.relocate f).location = e.location := by rw [relocate_eq]
  have declared : (e.relocate f).declared = e.declared := by rw [relocate_eq]
  rw [asVariable, asVariable, identity, location, declared]
  cases e.location.read with
  | error reason => rfl
  | ok place =>
    change (if (place.isNone && e.declared) = true then _ else _) =
      Except.map _ (if (place.isNone && e.declared) = true then _ else _)
    by_cases elsewhere : (place.isNone && e.declared) = true
    · rw [if_pos elsewhere, if_pos elsewhere]
      rfl
    · rw [if_neg elsewhere, if_neg elsewhere]
      cases e.identityOf with
      | error obstacle => rfl
      | ok row =>
        obtain ⟨name, typeRef⟩ := row
        cases name <;> cases typeRef <;> cases place <;> try rfl
        rename_i name typeRef place
        change ((addressOf encoding place).mapError Obstacle.unusable >>= fun address =>
            pure (some ({ name, address, typeRef := f typeRef } : Variable))) =
          ((addressOf encoding place).mapError Obstacle.unusable >>= fun address =>
            pure (some ({ name, address, typeRef } : Variable))).map
              (Option.map (Variable.relocate f))
        cases addressOf encoding place <;> rfl

theorem variableTrail_relocate (level : Int) (e : Entry) :
    (e.relocate f).variableTrail encoding level = (e.variableTrail encoding level).relocate f := by
  rw [variableTrail, variableTrail, asVariable_relocate]
  by_cases deep : maxGlobalLevel < level
  · rw [if_pos deep, if_pos deep]
    rfl
  · rw [if_neg deep, if_neg deep]
    cases e.asVariable encoding with
    | error obstacle =>
      cases obstacle with
      | damaged damage => rfl
      | unusable reason =>
        rw [relocate_eq]
        rfl
    | ok found => cases found <;> rfl

theorem ownTrail?_relocate (encoding : Dwarf.Encoding) (level : Int) (e : Entry) :
    (e.relocate f).ownTrail? encoding level =
      (e.ownTrail? encoding level).map (Trail.relocate f) := by
  rw [ownTrail?, ownTrail?, role_relocate]
  cases e.role with
  | baseType => simp only [findBaseType_relocate]; rfl
  | typeDefinition => simp only [findTypeDefinition_relocate]; rfl
  | qualifier => simp only [findQualifier_relocate]; rfl
  | aggregate => exact congrArg some (structureTrail_relocate e)
  | «variable» => exact congrArg some (variableTrail_relocate level e)
  | member | other => rfl

mutual

/-- A walk over an entry whose offsets are replaced finds the same with the offsets replaced. -/
theorem trail_relocate (level : Int) :
    ∀ e : Entry, (e.relocate f).trail encoding level = (e.trail encoding level).relocate f
  | ⟨tag, offset, name, typeRef, location, memberLocation, declared, specification, children,
      failure⟩ => by
    have own := ownTrail?_relocate (f := f) encoding level
      ⟨tag, offset, name, typeRef, location, memberLocation, declared, specification, children,
        failure⟩
    rw [relocate] at own
    rw [relocate, trail, trail, own, Trail.relocate_andThen]
    cases ownTrail? encoding level ⟨tag, offset, name, typeRef, location, memberLocation, declared,
        specification, children, failure⟩ with
    | some found => rfl
    | none =>
      simp only [Option.map_none, trailOfChildren_relocate (level + 1) children,
        Trail.relocate_andThen]
      rfl

theorem trailOfChildren_relocate (level : Int) :
    ∀ children : List Entry, trailOfChildren encoding level (relocateAll f children) =
      (trailOfChildren encoding level children).relocate f
  | [] => rfl
  | child :: rest => by
    rw [relocateAll, trailOfChildren, trailOfChildren, trail_relocate level child,
      trailOfChildren_relocate level rest, Trail.relocate_andThen]

end

end Entry

theorem DebugUnit.trail_relocate (u : DebugUnit) :
    (u.relocate f).trail = u.trail.relocate f := by
  rw [trail, trail, relocate]
  cases u.top with
  | error damage => rfl
  | ok entry => exact Entry.trail_relocate 0 entry

/-! ## Surveys -/

namespace Survey

/-- What is picked from findings has its offsets replaced as they have. -/
theorem filterMap_relocate {α : Type} (pick : Finding → Option α) (g : α → α)
    (each : ∀ x : Finding, pick (x.relocate f) = (pick x).map g) (findings : List Finding) :
    (findings.map (Finding.relocate f)).filterMap pick = (findings.filterMap pick).map g := by
  rw [List.filterMap_map, List.map_filterMap]
  congr 1
  funext x
  exact each x

theorem addTrail_relocate (injective : Function.Injective f) {s t : Survey}
    (same : t.graph = s.graph.relocate f) (trail : Trail) :
    (t.addTrail (trail.relocate f)).graph = (s.addTrail trail).graph.relocate f := by
  have baseTypes := filterMap_relocate (f := f) Finding.baseType?
    (fun row => (f row.1, id row.2)) (fun x => by cases x <;> rfl) trail.findings
  have typedefs := filterMap_relocate (f := f) Finding.typeDefinition?
    (fun row => (f row.1, row.2.relocate f)) (fun x => by cases x <;> rfl) trail.findings
  have structures := filterMap_relocate (f := f) Finding.structure?
    (fun row => (f row.1, row.2.relocate f)) (fun x => by cases x <;> rfl) trail.findings
  have qualifiers := filterMap_relocate (f := f) Finding.qualifier?
    (fun row => (f row.1, f row.2)) (fun x => by cases x <;> rfl) trail.findings
  have globals := filterMap_relocate (f := f) Finding.global?
    (Variable.relocate f) (fun x => by cases x <;> rfl) trail.findings
  simp only [addTrail, addFindings, Trail.relocate, same, TypeGraph.relocate, baseTypes, typedefs,
    structures, qualifiers, globals, OffsetMap.relocate_insertMany injective, List.map_append]

/-- A survey of units whose offsets are replaced gathers the graph whose offsets are, and ends
where it ended. -/
theorem addUnits_relocate (injective : Function.Injective f) {s t : Survey}
    (same : t.graph = s.graph.relocate f) (units : List DebugUnit) :
    (t.addUnits (units.map (DebugUnit.relocate f))).1.graph =
        (s.addUnits units).1.graph.relocate f ∧
      (t.addUnits (units.map (DebugUnit.relocate f))).2 = (s.addUnits units).2 := by
  induction units generalizing s t with
  | nil => exact ⟨same, rfl⟩
  | cons u rest ih =>
    have here := addTrail_relocate injective same u.trail
    have failure : (u.relocate f).trail.failure = u.trail.failure := by
      rw [DebugUnit.trail_relocate]
      rfl
    rw [List.map_cons, addUnits, addUnits, failure, DebugUnit.trail_relocate]
    cases u.trail.failure with
    | some damage => exact ⟨here, rfl⟩
    | none => exact ih here

theorem add_relocate (injective : Function.Injective f) (info : DebugInfo) :
    (Survey.add {} (info.relocate f)).1.graph =
        (Survey.add {} info).1.graph.relocate f ∧
      (Survey.add {} (info.relocate f)).2 = (Survey.add {} info).2 := by
  have same : ({} : Survey).graph = ({} : Survey).graph.relocate f := rfl
  obtain ⟨graph, damage⟩ := addUnits_relocate injective same info.units
  refine ⟨graph, ?_⟩
  change ((addUnits {} (info.units.map (DebugUnit.relocate f))).2).or
    (info.failure.map Hindrance.damaged) = _
  rw [damage]
  rfl

end Survey

/-- **Offsets count by identity and order alone.** Replacing every offset of a graph along an
increasing function leaves the text of its map as it is, without blanks or indented. So a file
whose units stand elsewhere, with all their offsets and references moved along, has the same map,
and what kept its walk from the end before does so again. -/
theorem print_relocate (increasing : StrictMono f) :
    (∀ (graph : TypeGraph) (pretty : Bool),
      MapFile.print (graph.relocate f).resolve.graph.entries pretty =
        MapFile.print graph.resolve.graph.entries pretty) ∧
    ∀ (info : DebugInfo) (pretty : Bool),
      (Survey.add {} (info.relocate f)).2 = (Survey.add {} info).2 ∧
      MapFile.print (Survey.add {} (info.relocate f)).1.graph.resolve.graph.entries pretty =
        MapFile.print (Survey.add {} info).1.graph.resolve.graph.entries pretty := by
  refine ⟨fun graph pretty => ?_, fun info pretty => ?_⟩
  · rw [TypeGraph.entries_resolve_relocate increasing]
  · obtain ⟨graph, damage⟩ := Survey.add_relocate increasing.injective info
    exact ⟨damage, by rw [graph, TypeGraph.entries_resolve_relocate increasing]⟩

/-- Offsets that move apart, from below zero on. -/
theorem print_relocate_tripled : StrictMono (fun offset : Int => 3 * offset - 100) ∧
    MapFile.print
        (TypeGraph.nodeGraph.relocate fun offset => 3 * offset - 100).resolve.graph.entries true =
      MapFile.print TypeGraph.nodeGraph.resolve.graph.entries true ∧
    MapFile.print (Survey.add {} (DebugInfo.relocate (fun offset => 3 * offset - 100)
        ⟨[Survey.pointUnit], none⟩)).1.graph.resolve.graph.entries false =
      MapFile.print (Survey.add {} ⟨[Survey.pointUnit], none⟩).1.graph.resolve.graph.entries
        false := by
  have increasing : StrictMono (fun offset : Int => 3 * offset - 100) := by
    intro a b below
    change 3 * a - 100 < 3 * b - 100
    omega
  obtain ⟨graphs, files⟩ := print_relocate increasing
  exact ⟨increasing, graphs TypeGraph.nodeGraph true, (files ⟨[Survey.pointUnit], none⟩ false).2⟩

end GlobalMap
