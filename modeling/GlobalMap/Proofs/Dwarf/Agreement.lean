import GlobalMap.Proofs.DebugInfo.Relocation
import GlobalMap.Proofs.Dwarf.RoundTrip
import GlobalMap.Proofs.Session.Strict

/-! Debug information comes to the same whether it is read from an object file or held as trees in
memory. What a unit is at its place in the section is what it would be at the start, with its place
added to every offset and to every reference; the place and the size of a unit do not show in a
survey. -/
namespace GlobalMap

/-! ## Walks and surveys -/

/-- Nothing in a tree is damaged if nothing is at its root nor below any of its children. -/
theorem Entry.forall_placed_undamaged {e : Entry} {above : List Entry} (here : e.Undamaged)
    (below : ∀ child ∈ e.children, ∀ p ∈ child.placed (e :: above), p.entry.Undamaged) :
    ∀ p ∈ e.placed above, p.entry.Undamaged := by
  intro p mem
  rw [placed_eq, placedAmong_eq_flatMap] at mem
  rcases List.mem_cons.mp mem with rfl | mem
  · exact here
  · obtain ⟨child, isChild, mem⟩ := List.mem_flatMap.mp mem
    exact below child isChild p mem

theorem Entry.forall_placed_leaf {e : Entry} {above : List Entry} (here : e.Undamaged)
    (leaf : e.children = []) : ∀ p ∈ e.placed above, p.entry.Undamaged := by
  refine forall_placed_undamaged here fun child mem => ?_
  rw [leaf] at mem
  cases mem

/-- Units that are walked in the same way are surveyed in the same way. -/
theorem Survey.addUnits_congr {units others : List DebugUnit}
    (same : units.map DebugUnit.trail = others.map DebugUnit.trail) (s : Survey) :
    s.addUnits units = s.addUnits others := by
  induction units generalizing others s with
  | nil =>
    have none : others = [] := List.map_eq_nil_iff.mp same.symm
    rw [none]
  | cons u units ih =>
    obtain ⟨v, rest, rfl, first, later⟩ := List.map_eq_cons_iff.mp same.symm
    rw [addUnits, addUnits, first]
    cases u.trail.failure with
    | some hindrance => rfl
    | none => exact ih later.symm _

/-- A survey of a file that is walked to its end takes progress further by what it counts itself. -/
theorem Session.runs_survey {info : DebugInfo} (decodes : info.Decodes) (s : Session) :
    Runs (survey info) s (.ok (Survey.add {} info).1)
      (s.counted info.units.length (Survey.add {} info).1.entries) := by
  have entries : (Survey.add {} info).1.entries = visits info.units :=
    (entries_addUnits info.units decodes.1).trans (Nat.zero_add _)
  have surveys := comes_survey (s := s) info
  rw [ended_add_of_undamaged decodes.1 decodes.2, walked, started_of_undamaged decodes.1,
    ← entries] at surveys
  exact Tells.runs surveys

namespace Dwarf

/-! ## Places -/

/-- Entries that stand further on are the same entries with their offsets moved along. -/
theorem inOrder_relocate {α : Type} {bytes : α → Bytes} {things : List α}
    {make : Nat → Nat → α → Entry} {base : Nat}
    (each : ∀ a ∈ things, ∀ place,
      make base (base + place) a = (make 0 place a).relocate (· + base)) (place : Nat) :
    inOrder bytes (make base) (base + place) things =
      (inOrder bytes (make 0) place things).map (Entry.relocate (· + base)) := by
  induction things generalizing place with
  | nil => rfl
  | cons a things ih =>
    obtain ⟨here, others⟩ := List.forall_mem_cons.mp each
    rw [inOrder, inOrder, List.map_cons, here, Nat.add_assoc, ih others]

theorem SourceMember.entry_relocate (m : SourceMember) (base place : Nat) :
    m.entry base (base + place) = (m.entry 0 place).relocate (· + base) := by
  rw [Entry.relocate_eq]
  simp [entry, Attribute.map, Int.add_comm]

theorem SourceItem.entry_relocate (item : SourceItem) (base place : Nat) :
    item.entry base (base + place) = (item.entry 0 place).relocate (· + base) := by
  rw [Entry.relocate_eq]
  cases item with
  | structureType name size members =>
    have moved (place : Nat) : inOrder SourceMember.bytes (SourceMember.entry base) (base + place)
        members = _ := inOrder_relocate (fun m _ place => m.entry_relocate base place) place
    simp [entry, children, Attribute.map, Int.add_comm, Nat.add_assoc, moved]
  | baseType name encoding size => simp [entry, Attribute.map, Int.add_comm]
  | typeDefinition name type => simp [entry, Attribute.map, Int.add_comm]
  | global name type address => simp [entry, Attribute.map, Int.add_comm]

namespace SourceUnit

/-- A unit is what it would be at the start, with its place added to all offsets and references. -/
theorem tree_relocate (u : SourceUnit) (base : Nat) :
    u.tree base = (u.tree 0).relocate (· + base) := by
  have moved (place : Nat) : inOrder SourceItem.bytes (SourceItem.entry base) (base + place)
      u.items = _ := inOrder_relocate (fun item _ place => item.entry_relocate base place) place
  rw [Entry.relocate_eq]
  simp [tree, itemsPlace, Attribute.map, Int.add_comm, Nat.add_assoc, moved]

end SourceUnit

/-! ## Damage -/

theorem SourceMember.undamaged (m : SourceMember) (base place : Nat) (above : List Entry) :
    ∀ p ∈ (m.entry base place).placed above, p.entry.Undamaged :=
  Entry.forall_placed_leaf ⟨rfl, rfl⟩ rfl

theorem SourceItem.undamaged (item : SourceItem) (base place : Nat) (above : List Entry) :
    ∀ p ∈ (item.entry base place).placed above, p.entry.Undamaged := by
  cases item with
  | structureType name size members =>
    refine Entry.forall_placed_undamaged ⟨rfl, rfl⟩ fun child mem => ?_
    obtain ⟨m, _, place, rfl⟩ := mem_inOrder mem
    exact m.undamaged base place _
  | baseType name encoding size => exact Entry.forall_placed_leaf ⟨rfl, rfl⟩ rfl
  | typeDefinition name type => exact Entry.forall_placed_leaf ⟨rfl, rfl⟩ rfl
  | global name type address => exact Entry.forall_placed_leaf ⟨rfl, rfl⟩ rfl

namespace SourceUnit

theorem undamaged (u : SourceUnit) (base : Nat) :
    ∀ p ∈ (u.tree base).placed [], p.entry.Undamaged := by
  refine Entry.forall_placed_undamaged ⟨rfl, rfl⟩ fun child mem => ?_
  obtain ⟨item, _, place, rfl⟩ := mem_inOrder mem
  exact item.undamaged base place _

/-- The debug information of units as it is read: their trees, with the places and the sizes of the
units. -/
def written (units : List SourceUnit) : DebugInfo :=
  ⟨inOrder bytes debugUnit 0 units, none⟩

theorem decodes_written (units : List SourceUnit) : (written units).Decodes := by
  refine DebugInfo.decodes_of_undamaged ⟨rfl, fun debugUnit mem => ?_⟩
  obtain ⟨u, _, base, rfl⟩ := mem_inOrder mem
  exact u.undamaged base

theorem decodes_inMemory (units : List SourceUnit) : (inMemory units).Decodes := by
  refine DebugInfo.decodes_of_undamaged ⟨rfl, fun debugUnit mem => ?_⟩
  obtain ⟨tree, isTree, rfl⟩ := List.mem_map.mp mem
  obtain ⟨u, _, base, rfl⟩ := mem_inOrder isTree
  exact u.undamaged base

/-! ## Object files -/

variable {c : Coff.Contents} {units : List SourceUnit}

theorem read_ofImage (holds : Holds c units) (fits : ∀ u ∈ units, u.Fits) :
    DebugInfo.read (.ofImage c.image) = written units := by
  refine read_units fits ?_ ?_
  · exact (c.image_sectionData Sections.entriesName).trans holds.entries
  · exact (c.image_sectionData Sections.abbreviationsName).trans holds.abbreviations

/-- Where a unit stands and how long it is does not show in a survey. -/
theorem add_written (units : List SourceUnit) (s : Survey) :
    s.add (written units) = s.add (inMemory units) := by
  have trails : (written units).units.map DebugUnit.trail =
      (inMemory units).units.map DebugUnit.trail := by
    rw [written, inMemory, List.map_map, map_inOrder, map_inOrder]
    rfl
  rw [Session.add_eq, Session.add_eq, Survey.addUnits_congr trails]
  rfl

/-- **Bytes and trees agree.** An object file that holds units, whatever else it holds, is read, and
its debug information is the trees of the units, each with all offsets and references moved to where
the unit stands. A survey of the file goes on from any other in the same way as one of the trees in
memory: it has the same graph, leaves the same entries out for the same reasons, and counts as many
units and entries; and so a session over either ends in the same survey and the same progress. -/
theorem survey_written (laidOut : c.Fits) (fits : ∀ u ∈ units, u.Fits) (holds : Holds c units) :
    ∃ image, Coff.Image.read c.bytes = .ok image ∧
      DebugInfo.read (.ofImage image) = written units ∧
      (∀ u ∈ units, ∀ base : Nat, u.tree base = (u.tree 0).relocate (· + base)) ∧
      (∀ s : Survey, s.add (DebugInfo.read (.ofImage image)) = s.add (inMemory units)) ∧
      (Survey.add {} (inMemory units)).2 = none ∧
      ∀ info ∈ [DebugInfo.read (.ofImage image), inMemory units], ∀ s : Session,
        Session.Runs (Session.survey info) s (.ok (Survey.add {} (inMemory units)).1)
          (s.counted units.length (Survey.add {} (inMemory units)).1.entries) := by
  have read := read_ofImage holds fits
  have same := add_written units
  refine ⟨c.image, Coff.Contents.read_bytes laidOut, read, fun u _ => u.tree_relocate, ?_, ?_, ?_⟩
  · rw [read]
    exact same
  · have complete := Session.addUnits_undamaged (decodes_inMemory units).1 {}
    rw [Session.add_eq, complete]
    rfl
  · rw [read]
    intro info mem s
    rcases List.mem_pair.mp mem with rfl | rfl
    · have runs := Session.runs_survey (decodes_written units) s
      rwa [same, written, length_inOrder] at runs
    · have runs := Session.runs_survey (decodes_inMemory units) s
      have length : (inMemory units).units.length = units.length := by
        rw [inMemory, List.length_map, length_inOrder]
      rwa [length] at runs

/-- The program of a point at 0x1000 and a counter at 0x2000. -/
def pointUnit : SourceUnit where
  name := "test.c"
  items := [
    .baseType "int" 5 4,
    .structureType "point" 8 [⟨"x", 19, .constant 0⟩, ⟨"y", 19, .plus 4⟩],
    .typeDefinition "point_t" 26,
    .global "origin" 53 0x1000,
    .global "counter" 19 0x2000]

/-- A unit whose only variable is of a type in front of it, in the same unit. -/
def clockUnit : SourceUnit where
  name := "clock.c"
  items := [.baseType "long" 5 4, .global "ticks" 20 0x3000]

/-- An object file with both units and a section without a payload. -/
def twoUnits : Coff.Contents where
  sections := [(".text", [0, 0]), (".bss", []), (Sections.abbreviationsName, abbreviationBytes),
    (Sections.entriesName, [pointUnit, clockUnit].flatMap bytes)]

/-- The second unit stands at 104, so its reference 20 is one to 124. -/
theorem survey_written_twoUnits :
    twoUnits.Fits ∧ (∀ u ∈ [pointUnit, clockUnit], u.Fits) ∧
      Holds twoUnits [pointUnit, clockUnit] ∧
      (written [pointUnit, clockUnit]).units.map DebugUnit.offset = [0, 104] ∧
      ∃ image, Coff.Image.read twoUnits.bytes = .ok image ∧
        DebugInfo.read (.ofImage image) = written [pointUnit, clockUnit] ∧
        clockUnit.tree 104 = (clockUnit.tree 0).relocate (· + 104) ∧
        ∀ s : Survey, s.add (DebugInfo.read (.ofImage image)) =
          s.add (inMemory [pointUnit, clockUnit]) := by
  have laidOut : twoUnits.Fits :=
    ⟨by decide +kernel, by decide, by decide, by decide, by decide, by decide +kernel⟩
  have fits : ∀ u ∈ [pointUnit, clockUnit], u.Fits := by
    intro u mem
    rcases List.mem_pair.mp mem with rfl | rfl
    · exact ⟨by decide, by decide, by decide +kernel⟩
    · exact ⟨by decide, by decide, by decide +kernel⟩
  have holds : Holds twoUnits [pointUnit, clockUnit] := ⟨by decide +kernel, by decide +kernel⟩
  obtain ⟨image, laid, read, moved, same, _⟩ := survey_written laidOut fits holds
  exact ⟨laidOut, fits, holds, by decide +kernel, image, laid, read,
    moved clockUnit (.tail _ (.head _)) 104, same⟩

end SourceUnit

end Dwarf

end GlobalMap
