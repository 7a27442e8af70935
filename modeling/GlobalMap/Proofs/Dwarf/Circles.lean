import GlobalMap.Proofs.DebugInfo.Approach
import GlobalMap.Proofs.Dwarf.Cursors
import Mathlib.Data.Finset.Prod

/-! Entries that lead around in circles. Reading entries within a number of steps gives more and
more of them as the steps become more. There are finitely many places in a section and few ends for
which one is come to, so whatever ends within any number of steps does so within as many as there
are places for those ends; and what does not end within that many does not end at all. -/
namespace GlobalMap

namespace Dwarf

/-! ## Lists of entries -/

namespace Siblings

variable {encoding : Encoding} {s s' s'' : Siblings}

/-- The walk over entries that stand side by side, up to their end. -/
def trail (encoding : Encoding) (level : Int) (near : Nat) (s : Siblings) : Trail :=
  (Entry.trailOfChildren encoding level s.entries).andThen ⟨[], s.failure near⟩

theorem failure_eq_endless_iff (near : Nat) :
    s.failure near = some .endless ↔ s.untold = none ∧ s.stop = .nowhere := by
  unfold failure
  cases s.untold <;> cases s.stop <;> simp

theorem failure_trail_eq_endless_iff (level : Int) (near near' : Nat) :
    (s.trail encoding level near).failure = some .endless ↔
      (s.trail encoding level near').failure = some .endless := by
  rw [trail, trail, Trail.failure_andThen_eq_endless_iff, Trail.failure_andThen_eq_endless_iff]
  simp only [failure_eq_endless_iff]

theorem trail_deep {level : Int} (deep : 2 ≤ level) (near : Nat) :
    s.trail encoding level near = s.trail encoding 2 near := by
  rw [trail, trail, Entry.trailOfChildren_deep deep]

/-- What one list of entries is read for is what the other is read for, unless it has no end. -/
structure Approaches (encoding : Encoding) (s s' : Siblings) : Prop where
  stop : s.stop = .nowhere ∨ s.stop = s'.stop
  flat : ∀ near, s.failure near = some .endless ∨
    (s.failure near = s'.failure near ∧ s.entries.map Entry.bare = s'.entries.map Entry.bare)
  walk : ∀ level near, 1 ≤ level →
    (s.trail encoding level near).Approaches (s'.trail encoding level near)

theorem Approaches.refl (s : Siblings) : s.Approaches encoding s :=
  ⟨.inr rfl, fun _ => .inr ⟨rfl, rfl⟩, fun _ _ _ => .refl _⟩

theorem Approaches.trans (first : s.Approaches encoding s') (second : s'.Approaches encoding s'') :
    s.Approaches encoding s'' where
  stop := first.stop.elim .inl fun same => same ▸ second.stop
  flat near := by
    rcases first.flat near with endless | ⟨failure, entries⟩
    · exact .inl endless
    · rw [failure, entries]
      exact second.flat near
  walk level near shallow := (first.walk level near shallow).trans (second.walk level near shallow)

/-- A list that leads nowhere from its start on. -/
theorem nowhere_approaches (s : Siblings) : Siblings.Approaches encoding { stop := .nowhere } s :=
  ⟨.inl rfl, fun _ => .inl rfl, fun _ _ _ => .inl rfl⟩

/-- What a list of entries may be read for. -/
inductive Need where
  /-- What is behind the list. -/
  | stop
  /-- Its entries alone, as the children of a structure. -/
  | entries
  /-- The walk over them at the top of a unit. -/
  | shallow
  /-- The walk over them further down. -/
  | deep
  deriving DecidableEq

/-- All that a list may be read for. -/
def Need.all : Finset Need :=
  {.stop, .entries, .shallow, .deep}

theorem Need.mem_all (need : Need) : need ∈ all := by
  cases need <;> decide

/-- A list of entries has got to the end that it is read for. -/
def Known (encoding : Encoding) (s : Siblings) : Need → Prop
  | .stop => s.stop ≠ .nowhere
  | .entries => s.failure 0 ≠ some .endless
  | .shallow => (s.trail encoding 1 0).failure ≠ some .endless
  | .deep => (s.trail encoding 2 0).failure ≠ some .endless

instance (stop : Stop) : Decidable (stop = .nowhere) :=
  match stop with
  | .nowhere => isTrue rfl
  | .behind _ | .fault _ => isFalse fun same => by cases same

instance (need : Need) : Decidable (s.Known encoding need) :=
  match need with
  | .stop => inferInstanceAs (Decidable (s.stop ≠ .nowhere))
  | .entries => inferInstanceAs (Decidable (s.failure 0 ≠ some .endless))
  | .shallow => inferInstanceAs (Decidable ((s.trail encoding 1 0).failure ≠ some .endless))
  | .deep => inferInstanceAs (Decidable ((s.trail encoding 2 0).failure ≠ some .endless))

theorem Approaches.known (approaches : s.Approaches encoding s') {need : Need}
    (known : s.Known encoding need) : s'.Known encoding need := by
  unfold Known at known ⊢
  cases need with
  | stop =>
    rw [← approaches.stop.resolve_left known]
    exact known
  | entries =>
    rw [← ((approaches.flat 0).resolve_left known).1]
    exact known
  | shallow =>
    rw [← (approaches.walk 1 0 (by decide)).ends known]
    exact known
  | deep =>
    rw [← (approaches.walk 2 0 (by decide)).ends known]
    exact known

/-- Where no more is known of the second list than of the first, the two are alike. -/
theorem Approaches.symm (approaches : s.Approaches encoding s')
    (known : ∀ need, s'.Known encoding need → s.Known encoding need) :
    s'.Approaches encoding s where
  stop := by
    by_cases nowhere : s'.stop = .nowhere
    · exact .inl nowhere
    · exact .inr (approaches.stop.resolve_left (known .stop nowhere)).symm
  flat near := by
    by_cases endless : s'.failure near = some .endless
    · exact .inl endless
    · rw [failure_eq_endless_iff, ← failure_eq_endless_iff 0] at endless
      have ends := known .entries endless
      rw [Known, Ne, failure_eq_endless_iff, ← failure_eq_endless_iff near] at ends
      obtain ⟨failure, entries⟩ := (approaches.flat near).resolve_left ends
      exact .inr ⟨failure.symm, entries.symm⟩
  walk level near shallow := by
    have walked := approaches.walk level near shallow
    by_cases endless : (s'.trail encoding level near).failure = some .endless
    · exact .inl endless
    · refine .inr (walked.ends ?_).symm
      rw [Ne, failure_trail_eq_endless_iff level near 0]
      rw [failure_trail_eq_endless_iff level near 0] at endless
      rcases (by omega : level = 1 ∨ 2 ≤ level) with rfl | deep
      · exact known .shallow endless
      · rw [trail_deep deep] at endless ⊢
        exact known .deep endless

end Siblings

/-! ## One step -/

section Step

variable {l : LoadedUnits} {u : LoadedUnit} {top : Except Fault Record} {bases : Fields}
  {encoding : Encoding} {read read' : Cursor → Siblings} {r : Record}

/-- Reading from a place leads to places of the same section. -/
def StaysIn (bytes : Bytes) (read : Cursor → Siblings) : Prop :=
  ∀ place next, (read (.ofOffset bytes place)).stop = .behind next →
    ∃ place', next = .ofOffset bytes place'

/-- From every place of a section one reading approaches another one. -/
def ApproachIn (bytes : Bytes) (encoding : Encoding) (read read' : Cursor → Siblings) : Prop :=
  ∀ place, (read (.ofOffset bytes place)).Approaches encoding (read' (.ofOffset bytes place))

theorem below_approaches (each : ApproachIn l.sections.entries encoding read read')
    (stands : ∃ place, r.next = .ofOffset l.sections.entries place) :
    (r.below read).Approaches encoding (r.below read') := by
  obtain ⟨place, next⟩ := stands
  unfold Record.below
  split
  · rw [next]
    exact each place
  · exact .refl _

theorem below_staysIn (stays : StaysIn l.sections.entries read)
    (stands : ∃ place, r.next = .ofOffset l.sections.entries place) {next : Cursor}
    (behind : (r.below read).stop = .behind next) :
    ∃ place, next = .ofOffset l.sections.entries place := by
  obtain ⟨place, same⟩ := stands
  unfold Record.below at behind
  split at behind
  · rw [same] at behind
    exact stays place next behind
  · cases behind
    exact ⟨place, same⟩

/-- What is behind an entry is what its attribute says or what is behind its children. -/
theorem following_cases (l : LoadedUnits) (u : LoadedUnit) (r : Record) :
    (∃ place, ∀ s, r.following l u s = .behind (.ofOffset l.sections.entries place)) ∨
      (∃ fault, ∀ s, r.following l u s = .fault fault) ∨ ∀ s, r.following l u s = s.stop := by
  unfold Record.following
  split
  · split
    · exact .inl ⟨_, fun _ => rfl⟩
    · exact .inl ⟨_, fun _ => rfl⟩
    · exact .inl ⟨_, fun _ => rfl⟩
    · exact .inr (.inl ⟨_, fun _ => rfl⟩)
  · exact .inr (.inl ⟨_, fun _ => rfl⟩)
  · exact .inr (.inr fun _ => rfl)

/-- The entries behind an entry. -/
def behindEntry (l : LoadedUnits) (u : LoadedUnit) (r : Record) (read : Cursor → Siblings) :
    Siblings :=
  match r.following l u (r.below read) with
  | .behind next => read next
  | stop => { stop }

theorem behindEntry_approaches (each : ApproachIn l.sections.entries encoding read read')
    (stays : StaysIn l.sections.entries read)
    (stands : ∃ place, r.next = .ofOffset l.sections.entries place) :
    (behindEntry l u r read).Approaches encoding (behindEntry l u r read') := by
  have below := below_approaches each stands
  unfold behindEntry
  rcases following_cases l u r with ⟨place, said⟩ | ⟨fault, said⟩ | said
  · rw [said, said]
    exact each place
  · rw [said, said]
    exact .refl _
  · rw [said, said]
    rcases below.stop with nowhere | same
    · rw [nowhere]
      exact Siblings.nowhere_approaches _
    · rw [← same]
      cases stop : (r.below read).stop with
      | behind next =>
        obtain ⟨place, rfl⟩ := below_staysIn stays stands stop
        exact each place
      | fault fault => exact .refl _
      | nowhere => exact .refl _

theorem behindEntry_staysIn (stays : StaysIn l.sections.entries read)
    (stands : ∃ place, r.next = .ofOffset l.sections.entries place) {next : Cursor}
    (behind : (behindEntry l u r read).stop = .behind next) :
    ∃ place, next = .ofOffset l.sections.entries place := by
  unfold behindEntry at behind
  rcases following_cases l u r with ⟨place, said⟩ | ⟨fault, said⟩ | said
  · rw [said] at behind
    exact stays place next behind
  · rw [said] at behind
    cases behind
  · rw [said] at behind
    cases stop : (r.below read).stop with
    | behind middle =>
      obtain ⟨place, rfl⟩ := below_staysIn stays stands stop
      rw [stop] at behind
      exact stays place next behind
    | fault fault =>
      rw [stop] at behind
      cases behind
    | nowhere =>
      rw [stop] at behind
      cases behind

/-- An entry whose children are read further on. -/
theorem entry_trail_approaches {below below' : Siblings} (tag : String)
    (approaches : below.Approaches encoding below') {level : Int} (inside : 0 ≤ level) :
    ((r.entry l u top tag below).trail encoding level).Approaches
      ((r.entry l u top tag below').trail encoding level) :=
  Entry.trail_approaches level rfl (approaches.flat r.offset)
    (approaches.walk (level + 1) r.offset (by omega))

/-- An entry in front of others. -/
theorem cons_approaches {below below' others others' : Siblings} (tag : String)
    (children : below.Approaches encoding below') (rest : others.Approaches encoding others') :
    Siblings.Approaches encoding
      { others with entries := r.entry l u top tag below :: others.entries }
      { others' with entries := r.entry l u top tag below' :: others'.entries } where
  stop := rest.stop
  flat near := (rest.flat near).imp_right fun ⟨failure, entries⟩ =>
    ⟨failure, congrArg ((r.entry l u top tag below).bare :: ·) entries⟩
  walk level near shallow := by
    have behind := rest.walk level near shallow
    rw [Siblings.trail, Siblings.trail, Entry.trailOfChildren, Entry.trailOfChildren,
      Trail.andThen_assoc, Trail.andThen_assoc]
    exact (entry_trail_approaches tag children (by omega)).andThen behind

/-- An entry of whose tag there is no text ends a list, whatever is read behind it. -/
theorem untold_approaches {others others' : Siblings} (e : Entry) (tag : Number.Overlong)
    (rest : others.Approaches encoding others') :
    Siblings.Approaches encoding ⟨[e], some tag, others.stop⟩ ⟨[e], some tag, others'.stop⟩ where
  stop := rest.stop
  flat _ := .inr ⟨rfl, rfl⟩
  walk _ _ _ := .inr rfl

theorem firstSibling_approaches (each : ApproachIn l.sections.entries encoding read read')
    (stays : StaysIn l.sections.entries read) :
    ApproachIn l.sections.entries encoding (firstSibling l u top bases read)
      (firstSibling l u top bases read') := by
  intro place
  unfold firstSibling
  cases found : u.readRecord l.sections (some bases) (.ofOffset l.sections.entries place) with
  | error fault => exact .refl _
  | ok r =>
    have stands := (leads_readRecord found).eq_ofOffset
    have children := below_approaches each stands
    have rest := behindEntry_approaches (u := u) each stays stands
    dsimp only
    split
    · exact .refl _
    · cases r.tagText with
      | error tag => exact untold_approaches _ tag rest
      | ok tag => exact cons_approaches tag children rest

theorem firstSibling_staysIn (stays : StaysIn l.sections.entries read) :
    StaysIn l.sections.entries (firstSibling l u top bases read) := by
  intro place next behind
  unfold firstSibling at behind
  cases found : u.readRecord l.sections (some bases) (.ofOffset l.sections.entries place) with
  | error fault =>
    rw [found] at behind
    cases behind
  | ok r =>
    have stands := (leads_readRecord found).eq_ofOffset
    rw [found] at behind
    dsimp only at behind
    split at behind
    · cases behind
      exact stands
    · have rest : (behindEntry l u r read).stop = .behind next := by
        cases told : r.tagText with
        | error tag =>
          rw [told] at behind
          exact behind
        | ok tag =>
          rw [told] at behind
          exact behind
      exact behindEntry_staysIn stays stands rest

/-- Behind the end of a section nothing is read. -/
theorem firstSibling_behind {place : Nat} (behind : l.sections.entries.length ≤ place) :
    firstSibling l u top bases read (.ofOffset l.sections.entries place) =
      { stop := .fault .truncated } := by
  unfold firstSibling LoadedUnit.readRecord Cursor.ofOffset
  rw [List.drop_eq_nil_of_le behind]
  rfl

end Step

/-! ## Many steps -/

section Steps

variable {l : LoadedUnits} {u : LoadedUnit} {top : Except Fault Record} {bases : Fields}
  {encoding : Encoding}

theorem readSiblings_staysIn (steps : Nat) :
    StaysIn l.sections.entries (readSiblings l u top bases steps) := by
  induction steps with
  | zero =>
    intro place next behind
    cases behind
  | succ steps ih => exact firstSibling_staysIn ih

/-- With more steps the entries are read further. -/
theorem readSiblings_approaches_succ (steps : Nat) :
    ApproachIn l.sections.entries encoding (readSiblings l u top bases steps)
      (readSiblings l u top bases (steps + 1)) := by
  induction steps with
  | zero => exact fun place => Siblings.nowhere_approaches _
  | succ steps ih => exact firstSibling_approaches ih (readSiblings_staysIn steps)

theorem readSiblings_approaches {few many : Nat} (le : few ≤ many) :
    ApproachIn l.sections.entries encoding (readSiblings l u top bases few)
      (readSiblings l u top bases many) := by
  induction many, le using Nat.le_induction with
  | base => exact fun place => .refl _
  | succ many _ ih => exact fun place => (ih place).trans (readSiblings_approaches_succ many place)

/-- What is known after some steps, at the places of a section and behind it. -/
def knownAfter (l : LoadedUnits) (u : LoadedUnit) (top : Except Fault Record)
    (bases : Fields) (encoding : Encoding) (steps : Nat) : Finset (Siblings.Need × Nat) :=
  (Siblings.Need.all ×ˢ Finset.range (l.sections.entries.length + 1)).filter fun row =>
    (readSiblings l u top bases steps (.ofOffset l.sections.entries row.2)).Known encoding row.1

theorem mem_knownAfter {steps place : Nat} {need : Siblings.Need} :
    (need, place) ∈ knownAfter l u top bases encoding steps ↔
      place ≤ l.sections.entries.length ∧
        (readSiblings l u top bases steps (.ofOffset l.sections.entries place)).Known encoding
          need := by
  simp only [knownAfter, Finset.mem_filter, Finset.mem_product, Finset.mem_range,
    Siblings.Need.mem_all, true_and, Nat.lt_succ_iff]

theorem knownAfter_mono : Monotone (knownAfter l u top bases encoding) := by
  rintro few many le ⟨need, place⟩ mem
  obtain ⟨inside, known⟩ := mem_knownAfter.mp mem
  exact mem_knownAfter.mpr ⟨inside, (readSiblings_approaches le place).known known⟩

variable (l u top bases encoding) in
theorem card_knownAfter_le (steps : Nat) :
    (knownAfter l u top bases encoding steps).card ≤ l.sections.reach :=
  calc _ ≤ (Siblings.Need.all ×ˢ Finset.range (l.sections.entries.length + 1)).card :=
        Finset.card_filter_le _ _
    _ = Siblings.Need.all.card * (l.sections.entries.length + 1) := by
        rw [Finset.card_product, Finset.card_range]
    _ = l.sections.reach := rfl

variable (l u top bases encoding) in
/-- Behind the section everything is known from the first step on. -/
theorem behind_mem_knownAfter (steps : Nat) :
    (.stop, l.sections.entries.length) ∈ knownAfter l u top bases encoding (steps + 1) := by
  refine mem_knownAfter.mpr ⟨Nat.le_refl _, ?_⟩
  rw [readSiblings, firstSibling_behind (Nat.le_refl _), Siblings.Known]
  exact fun same => by cases same

/-- Where more steps make no more known, they lead no further. -/
theorem readSiblings_approaches_of_knownAfter {few many : Nat} (le : few ≤ many)
    (same : knownAfter l u top bases encoding few = knownAfter l u top bases encoding many) :
    ApproachIn l.sections.entries encoding (readSiblings l u top bases many)
      (readSiblings l u top bases few) := by
  intro place
  cases many with
  | zero =>
    cases Nat.le_zero.mp le
    exact .refl _
  | succ many =>
    by_cases inside : place ≤ l.sections.entries.length
    · refine (readSiblings_approaches le place).symm fun need known => ?_
      have mem := mem_knownAfter.mpr ⟨inside, known⟩
      rw [← same] at mem
      exact (mem_knownAfter.mp mem).2
    · have behind := behind_mem_knownAfter l u top bases encoding many
      rw [← same] at behind
      cases few with
      | zero => exact absurd rfl (mem_knownAfter.mp behind).2
      | succ few =>
        rw [readSiblings, readSiblings, firstSibling_behind (by omega),
          firstSibling_behind (by omega)]
        exact .refl _

theorem card_knownAfter_stable (steps : Nat)
    (same : (knownAfter l u top bases encoding steps).card =
      (knownAfter l u top bases encoding (steps + 1)).card) :
    (knownAfter l u top bases encoding (steps + 1)).card =
      (knownAfter l u top bases encoding (steps + 2)).card := by
  have all : knownAfter l u top bases encoding steps =
      knownAfter l u top bases encoding (steps + 1) :=
    Finset.eq_of_subset_of_card_le (knownAfter_mono (Nat.le_succ steps)) same.ge
  have further : ApproachIn l.sections.entries encoding (readSiblings l u top bases (steps + 2))
      (readSiblings l u top bases (steps + 1)) :=
    firstSibling_approaches (readSiblings_approaches_of_knownAfter (Nat.le_succ steps) all)
      (readSiblings_staysIn (steps + 1))
  refine congrArg Finset.card
    (Finset.Subset.antisymm (knownAfter_mono (Nat.le_succ _)) ?_)
  rintro ⟨need, place⟩ mem
  obtain ⟨inside, known⟩ := mem_knownAfter.mp mem
  exact mem_knownAfter.mpr ⟨inside, (further place).known known⟩

variable (l u top bases encoding) in
/-- **No number of steps leads further than the reach of a section.** -/
theorem readSiblings_approaches_reach (steps : Nat) :
    ApproachIn l.sections.entries encoding (readSiblings l u top bases steps)
      (readSiblings l u top bases l.sections.reach) := by
  rcases Nat.le_total steps l.sections.reach with le | le
  · exact readSiblings_approaches le
  · have cards := Nat.stabilises_of_monotone
      (fun _ _ le => Finset.card_le_card (knownAfter_mono le))
      (card_knownAfter_le l u top bases encoding)
      card_knownAfter_stable le
    exact readSiblings_approaches_of_knownAfter le
      (Finset.eq_of_subset_of_card_le (knownAfter_mono le) cards.le)

end Steps

/-! ## Units -/

section Units

variable {l : LoadedUnits} {u : LoadedUnit} {top : Except Fault Record}

theorem exists_of_mem_readFrom {entries : Bytes} {size offset : Nat} {h : UnitHeader}
    (mem : h ∈ (UnitHeader.readFrom entries size offset).1) :
    ∃ place, UnitHeader.read entries place = .ok h := by
  fun_induction UnitHeader.readFrom entries size offset with
  | case1 offset inside fault read => cases mem
  | case2 offset inside header read next headers fault rest ih =>
    rcases List.mem_cons.mp mem with rfl | mem
    · exact ⟨offset, read⟩
    · rw [rest] at ih
      exact ih mem
  | case3 => cases mem

/-- What is behind the first entry of a unit is in the section. -/
theorem top_stands {sections : Sections} {first : Record}
    (mem : (u, .ok first) ∈ (LoadedUnits.load sections).units) :
    ∃ place, first.next = .ofOffset sections.entries place := by
  obtain ⟨h, isHeader, same⟩ := List.mem_map.mp mem
  obtain ⟨offset, read⟩ := exists_of_mem_readFrom isHeader
  obtain ⟨rfl, readsTop⟩ := Prod.mk.inj same
  obtain ⟨record, here, rest⟩ := exists_of_bind readsTop
  obtain ⟨fields, _, same⟩ := exists_of_bind rest
  cases same
  exact ((leads_top read).trans (leads_readRecord here)).eq_ofOffset

theorem debugUnit_approaches {sections : Sections}
    (mem : (u, top) ∈ (LoadedUnits.load sections).units) (steps : Nat) :
    ((LoadedUnits.load sections).debugUnit u top steps).trail.Approaches
      ((LoadedUnits.load sections).debugUnit u top sections.reach).trail := by
  cases top with
  | error fault => exact .refl _
  | ok first =>
    have below := below_approaches
      (readSiblings_approaches_reach (LoadedUnits.load sections) u (.ok first) first.fields
        u.header.encoding steps) (top_stands mem)
    unfold DebugUnit.trail LoadedUnits.debugUnit LoadedUnits.tree
    simp only [bind, Except.bind]
    cases first.tagText with
    | error tag => exact .refl _
    | ok tag => exact entry_trail_approaches tag below (Int.le_refl 0)

end Units

end Dwarf

/-! ## Surveys -/

/-- A survey of what some steps lead to is the survey of the file, unless it does not end. -/
theorem Survey.add_readWithin (sections : Dwarf.Sections) (steps : Nat) (s : Survey) :
    (s.add (DebugInfo.readWithin sections steps)).2 = some .endless ∨
      s.add (DebugInfo.readWithin sections steps) = s.add (DebugInfo.read sections) := by
  have units := addUnits_approaches (Dwarf.LoadedUnits.load sections).units
    (fun _ mem => Dwarf.debugUnit_approaches mem steps) s
  unfold DebugInfo.read DebugInfo.readWithin Dwarf.LoadedUnits.debugInfo Survey.add
  rcases units with endless | same
  · refine .inl ?_
    dsimp only
    rw [endless]
    rfl
  · refine .inr ?_
    dsimp only
    rw [same]

/-- **A survey has no end exactly when no number of steps brings it to one.** -/
theorem Survey.add_read_endless_iff (sections : Dwarf.Sections) (s : Survey) :
    (s.add (DebugInfo.read sections)).2 = some .endless ↔
      ∀ steps, (s.add (DebugInfo.readWithin sections steps)).2 = some .endless := by
  refine ⟨fun endless steps => ?_, fun endless => endless _⟩
  rcases s.add_readWithin sections steps with here | same
  · exact here
  · rw [same]
    exact endless

end GlobalMap
