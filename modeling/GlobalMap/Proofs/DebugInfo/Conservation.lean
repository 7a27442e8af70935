import GlobalMap.Proofs.DebugInfo.Counted
import GlobalMap.Proofs.DebugInfo.Collected

/-! No entry is lost. Over any files that are walked to their end, each reached entry of which a
record is due is in the graph or among the omissions, once, and so is each member of a reached
structure; so their numbers are those of the graph and the omissions together. An entry counts by
its offset, so the numbers of the graph are right where no offset comes twice. -/
namespace GlobalMap

open Entry (Placed)

/-! ## Reached entries -/

/-- An entry of a file: its place in its tree, and the encoding of the locations of its unit. -/
structure Site where
  encoding : Dwarf.Encoding
  placed : Placed

namespace Site

def entry (x : Site) : Entry :=
  x.placed.entry

/-- What a walk finds at an entry by itself. -/
def findings (x : Site) : List Finding :=
  x.placed.findings x.encoding

/-- What an entry gives. -/
def record? (x : Site) : Option Finding :=
  x.placed.record? x.encoding

/-- A walk meets no damage at an entry. -/
def Intact (x : Site) : Prop :=
  x.placed.Intact x.encoding

end Site

/-- The reached entries of a unit. -/
def DebugUnit.reached (u : DebugUnit) : List Site :=
  match u.top with
  | .ok e => ((e.placed []).filter Placed.Reached).map (Site.mk u.encoding)
  | .error _ => []

namespace DebugInfo

/-- The reached entries of a file. -/
def reached (info : DebugInfo) : List Site :=
  info.units.flatMap DebugUnit.reached

/-- A walk over the units of a file comes to its end. -/
def Decodes (info : DebugInfo) : Prop :=
  (∀ u ∈ info.units, u.trail.failure = none) ∧ info.failure = none

/-- A file that is not damaged is walked to its end. -/
theorem decodes_of_undamaged {info : DebugInfo} (undamaged : info.Undamaged) : info.Decodes :=
  ⟨fun u mem => (u.trail_yields (undamaged.2 u mem)).failure, undamaged.1⟩

end DebugInfo

theorem DebugUnit.findings_eq {u : DebugUnit} (ended : u.trail.failure = none) :
    u.trail.findings = u.reached.flatMap Site.findings ∧ ∀ x ∈ u.reached, x.Intact := by
  unfold DebugUnit.trail DebugUnit.reached at *
  cases top : u.top with
  | error damage =>
    rw [top] at ended
    cases ended
  | ok e =>
    rw [top] at ended
    have walks := Entry.trail_walks u.encoding e [] fun a mem => by cases mem
    constructor
    · exact (walks.findings ended).trans
        (List.flatMap_map (Site.mk u.encoding) Site.findings _).symm
    · intro x mem
      obtain ⟨p, among, rfl⟩ := List.mem_map.mp mem
      exact walks.intact_iff.mp ended p among

/-! ## A survey as one step -/

namespace Survey

/-- What a survey is after a walk over some units. -/
def addWalk (s : Survey) (findings : List Finding) (units : Nat) : Survey :=
  { s.addFindings findings with units := s.units + units }

theorem addWalk_nil (s : Survey) : s.addWalk [] 0 = s := by
  unfold addWalk addFindings
  simp

theorem addWalk_addWalk (s : Survey) (first second : List Finding) (m n : Nat) :
    (s.addWalk first m).addWalk second n = s.addWalk (first ++ second) (m + n) := by
  unfold addWalk addFindings
  simp only [List.filterMap_append, Std.ExtTreeMap.insertMany_append, List.append_assoc,
    List.countP_append, Nat.add_assoc]

/-- A survey goes over some reached entries, in some number of units, and meets no damage. -/
structure Covers (before after : Survey) (sites : List Site) (units : Nat) : Prop where
  after_eq : after = before.addWalk (sites.flatMap Site.findings) units
  intact : ∀ x ∈ sites, x.Intact

theorem covers_nil (s : Survey) : Covers s s [] 0 :=
  ⟨(addWalk_nil s).symm, fun x mem => by cases mem⟩

theorem Covers.append {before between after : Survey} {sites others : List Site} {m n : Nat}
    (first : Covers before between sites m) (second : Covers between after others n) :
    Covers before after (sites ++ others) (m + n) := by
  constructor
  · rw [second.after_eq, first.after_eq, addWalk_addWalk, List.flatMap_append]
  · exact List.forall_mem_append.mpr ⟨first.intact, second.intact⟩

theorem addTrail_covers (s : Survey) {u : DebugUnit} (ended : u.trail.failure = none) :
    Covers s (s.addTrail u.trail) u.reached 1 := by
  obtain ⟨findings, intact⟩ := DebugUnit.findings_eq ended
  constructor
  · rw [← findings]
    rfl
  · exact intact

theorem addUnits_covers {s : Survey} (units : List DebugUnit)
    (ended : ∀ u ∈ units, u.trail.failure = none) :
    (s.addUnits units).2 = none ∧
      Covers s (s.addUnits units).1 (units.flatMap DebugUnit.reached) units.length := by
  induction units generalizing s with
  | nil => exact ⟨rfl, covers_nil s⟩
  | cons u rest ih =>
    obtain ⟨here, others⟩ := List.forall_mem_cons.mp ended
    obtain ⟨none, covers⟩ := ih (s := s.addTrail u.trail) others
    simp only [addUnits, here]
    rw [List.flatMap_cons, List.length_cons, Nat.add_comm]
    exact ⟨none, (addTrail_covers s here).append covers⟩

theorem add_covers {s : Survey} (info : DebugInfo) (decodes : info.Decodes) :
    (s.add info).2 = none ∧ Covers s (s.add info).1 info.reached info.units.length := by
  obtain ⟨ended, complete⟩ := decodes
  obtain ⟨none, covers⟩ := addUnits_covers (s := s) info.units ended
  unfold add
  exact ⟨by simp only [none, complete, Option.map_none, Option.or_none], covers⟩

theorem addAll_covers {s : Survey} (sources : List DebugInfo)
    (decode : ∀ info ∈ sources, info.Decodes) :
    (s.addAll sources).2 = none ∧ Covers s (s.addAll sources).1
      (sources.flatMap DebugInfo.reached) (sources.flatMap DebugInfo.units).length := by
  induction sources generalizing s with
  | nil => exact ⟨rfl, covers_nil s⟩
  | cons info rest ih =>
    obtain ⟨here, others⟩ := List.forall_mem_cons.mp decode
    obtain ⟨none, first⟩ := add_covers (s := s) info here
    obtain ⟨complete, second⟩ := ih (s := (s.add info).1) others
    simp only [addAll, none]
    rw [List.flatMap_cons, List.flatMap_cons, List.length_append]
    exact ⟨complete, first.append second⟩

end Survey

/-! ## What is recorded -/

/-- A table of the graph: what it takes of findings, and the role of the entries they are of. -/
structure Finding.Table {α : Type} (pick : Finding → Option (Int × α)) (role : Role) : Prop where
  ofRole : ∀ f, (pick f).isSome = decide (f.role? = some role)
  keyed : ∀ {p : Placed} {f : Finding} {row : Int × α}, p.MayGive f → pick f = some row →
    row.1 = p.entry.offset

namespace Finding

theorem table_baseType : Table baseType? .baseType where
  ofRole := fun f => by cases f <;> rfl
  keyed := fun may picked => by cases may <;> cases picked; rfl

theorem table_typeDefinition : Table typeDefinition? .typeDefinition where
  ofRole := fun f => by cases f <;> rfl
  keyed := fun may picked => by cases may <;> cases picked; rfl

theorem table_qualifier : Table qualifier? .qualifier where
  ofRole := fun f => by cases f <;> rfl
  keyed := fun may picked => by cases may <;> cases picked; rfl

theorem table_structure : Table structure? .aggregate where
  ofRole := fun f => by cases f <;> rfl
  keyed := fun may picked => by cases may <;> cases picked; assumption

end Finding

namespace Site

variable {x : Site}

/-- The record of an entry is all that a walk records at it. -/
theorem yields (intact : x.Intact) : Trail.Yields ⟨x.findings, none⟩ x.record?.toList :=
  ⟨rfl, x.placed.filter_findings intact⟩

theorem mem_findings (intact : x.Intact) {f : Finding} (given : x.record? = some f) :
    f ∈ x.findings := by
  have mem : f ∈ x.record?.toList := Option.mem_toList.mpr given
  rw [← (yields intact).records] at mem
  exact (List.mem_filter.mp mem).1

end Site

/-! ## Tables -/

namespace Finding.Table

variable {α : Type} {pick : Finding → Option (Int × α)} {role : Role} {sites : List Site}

theorem pick_eq_none (table : Table pick role) (f : Finding) (plain : f.isRecord = false) :
    pick f = none := by
  have is := table.ofRole f
  cases f with
  | visited | omitted => exact Option.not_isSome_iff_eq_none.mp (by simp [is, role?])
  | baseType | typeDefinition | qualifier | aggregate | global => cases plain

/-- An entry has a row in one table at most, and that under its own offset. -/
theorem keys_sublist (table : Table pick role) {x : Site} (intact : x.Intact) :
    ((x.findings.filterMap pick).map Prod.fst).Sublist [x.entry.offset] := by
  have only : x.findings.filterMap pick = x.record?.toList.filterMap pick :=
    (Site.yields intact).filterMap table.pick_eq_none
  rw [only]
  cases given : x.record? with
  | none => exact List.nil_sublist _
  | some f =>
    cases picked : pick f with
    | none =>
      rw [Option.toList_some, List.filterMap_cons_none picked]
      exact List.nil_sublist _
    | some row =>
      rw [Option.toList_some, List.filterMap_cons_some picked, List.map_cons,
        table.keyed (Placed.mayGive_of_record? given) picked]
      exact List.Sublist.refl _

theorem nodup_keys (table : Table pick role) (intact : ∀ x ∈ sites, x.Intact)
    (distinct : (sites.map fun x => x.entry.offset).Nodup) :
    (((sites.flatMap Site.findings).filterMap pick).map Prod.fst).Nodup := by
  refine List.Sublist.nodup ?_ distinct
  clear distinct
  induction sites with
  | nil => exact List.Sublist.refl _
  | cons x rest ih =>
    obtain ⟨here, others⟩ := List.forall_mem_cons.mp intact
    rw [List.flatMap_cons, List.filterMap_append, List.map_append, List.map_cons]
    exact (table.keys_sublist here).append (ih others)

/-- A table has a row for each entry of its role that is recorded. -/
theorem size_eq (table : Table pick role) (intact : ∀ x ∈ sites, x.Intact)
    (distinct : (sites.map fun x => x.entry.offset).Nodup) :
    ((∅ : OffsetMap α).insertMany ((sites.flatMap Site.findings).filterMap pick)).size =
      (sites.flatMap Site.findings).countP fun f => f.role? = some role := by
  rw [OffsetMap.size_insertMany_empty (table.nodup_keys intact distinct),
    List.length_filterMap_eq_countP]
  congr 1
  funext f
  exact table.ofRole f

/-- What an entry gives is found under its offset. -/
theorem getElem?_of_record? (table : Table pick role) (intact : ∀ x ∈ sites, x.Intact)
    (distinct : (sites.map fun x => x.entry.offset).Nodup) {x : Site} (mem : x ∈ sites)
    {f : Finding} (given : x.record? = some f) {key : Int} {value : α}
    (picked : pick f = some (key, value)) :
    ((∅ : OffsetMap α).insertMany ((sites.flatMap Site.findings).filterMap pick))[key]? =
      some value := by
  apply (OffsetMap.getElem?_insertMany_empty_iff (table.nodup_keys intact distinct)).mpr
  have found : f ∈ sites.flatMap Site.findings :=
    List.mem_flatMap.mpr ⟨x, mem, Site.mem_findings (intact x mem) given⟩
  exact List.mem_filterMap.mpr ⟨f, found, picked⟩

end Finding.Table

/-! ## The account of a survey -/

namespace Omission

theorem getD_foldl (kind : String) (omissions : List Omission)
    (counts : Std.ExtTreeMap String Nat) :
    (omissions.foldl (fun counts o => counts.insert o.kind (counts.getD o.kind 0 + 1))
        counts).getD kind 0 =
      counts.getD kind 0 + omissions.countP fun o => o.kind = kind := by
  induction omissions generalizing counts with
  | nil => rfl
  | cons o rest ih =>
    rw [List.foldl_cons, ih, Std.ExtTreeMap.getD_insert, List.countP_cons]
    by_cases same : o.kind = kind
    · rw [if_pos (Std.compare_eq_iff_eq.mpr same), same]
      simp
      omega
    · rw [if_neg fun equal => same (Std.compare_eq_iff_eq.mp equal)]
      simp [same]

/-- The summary of omissions counts those of each kind. -/
theorem getD_tally (kind : String) (omissions : List Omission) :
    (tally omissions).getD kind 0 = omissions.countP fun o => o.kind = kind := by
  rw [tally, getD_foldl, Std.ExtTreeMap.getD_empty, Nat.zero_add]

end Omission

namespace Survey

/-- The number of omissions of a kind. -/
def leftOut (s : Survey) (kind : String) : Nat :=
  (Omission.tally s.omissions).getD kind 0

/-- An account of reached entries: how many of them there are of a role, and where they are now.
A qualifier without a type and a variable that is defined elsewhere are neither recorded nor left
out, and those are the only ones. -/
structure Accounts (s : Survey) (sites : List Site) : Prop where
  typedefs : (sites.countP fun x => x.entry.role = .typeDefinition) =
    s.graph.typedefs.size + s.leftOut "typedef"
  baseTypes : (sites.countP fun x => x.entry.role = .baseType) =
    s.graph.baseTypes.size + s.leftOut "base type"
  members : ((sites.flatMap fun x => x.placed.parts).countP fun c => c.role = .member) =
    (s.graph.structures.toList.flatMap fun row => row.2.members).length + s.leftOut "member"
  globals : (sites.countP fun x => x.entry.role = .variable ∧ x.placed.level ≤ 1) =
    s.graph.globals.length + s.leftOut "variable" +
      sites.countP fun x =>
        x.entry.role = .variable ∧ x.placed.level ≤ 1 ∧ x.entry.DeclaredElsewhere
  qualifiers : (sites.countP fun x => x.entry.role = .qualifier) =
    s.graph.qualifiers.size + s.leftOut "qualifier" +
      sites.countP fun x => x.entry.role = .qualifier ∧ x.entry.typeRef = .absent
  structures : (sites.countP fun x => x.entry.role = .aggregate) = s.graph.structures.size
  recorded : ∀ x ∈ sites, x.entry.role = .aggregate → x.entry.offset ∈ s.graph.structures
  entries : s.entries = sites.length + (sites.flatMap fun x => x.placed.parts).length

theorem length_filterMap_global? (findings : List Finding) :
    (findings.filterMap Finding.global?).length =
      findings.countP fun f => f.role? = some .variable := by
  rw [List.length_filterMap_eq_countP]
  congr 1
  funext f
  cases f <;> rfl

section Covers

variable {s : Survey} {sites : List Site} {units : Nat}

theorem Covers.leftOut_eq (covers : Covers {} s sites units) (kind : String) :
    s.leftOut kind = Finding.leftOut kind (sites.flatMap Site.findings) := by
  rw [leftOut, Omission.getD_tally, covers.after_eq]
  rfl

/-- The entries of a role of which a record is due are those that are recorded and those that are
left out. -/
theorem Covers.countP_due (covers : Covers {} s sites units) {role : Role} {kind : String}
    (named : role.kind? = some kind) :
    (sites.countP fun x => x.entry.role = role ∧ x.placed.Due) =
      ((sites.flatMap Site.findings).countP fun f => f.role? = some role) + s.leftOut kind := by
  rw [covers.leftOut_eq, ← Finding.countP_accountsFor]
  refine ((AddsUp.countP _).flatMap_eq_of_singletons (AddsUp.countP _) fun x mem => ?_).symm
  exact x.placed.countP_accountsFor_findings named (covers.intact x mem)

/-- The graph after a survey that began with nothing. -/
theorem Covers.graph_eq (covers : Covers {} s sites units) :
    s.graph = (({} : Survey).addFindings (sites.flatMap Site.findings)).graph := by
  rw [covers.after_eq]
  rfl

theorem Covers.members_eq (covers : Covers {} s sites units)
    (distinct : (sites.map fun x => x.entry.offset).Nodup) :
    ((sites.flatMap fun x => x.placed.parts).countP fun c => c.role = .member) =
      (s.graph.structures.toList.flatMap fun row => row.2.members).length + s.leftOut "member" := by
  have each := Finding.addsUp_accountedMembers.flatMap_eq (f := Site.findings)
    (g := fun x : Site => x.placed.parts) (AddsUp.countP fun c : Entry => c.role = .member)
    fun x mem => x.placed.accountedMembers_findings (covers.intact x mem)
  have rows := OffsetMap.toList_insertMany_perm
    (Finding.table_structure.nodup_keys covers.intact distinct)
  rw [← each, Finding.accountedMembers, covers.leftOut_eq, covers.graph_eq]
  exact congrArg (· + _) (rows.flatMap_right fun row => row.2.members).length_eq.symm

theorem Covers.entries_eq (covers : Covers {} s sites units) :
    s.entries = sites.length + (sites.flatMap fun x => x.placed.parts).length := by
  have visited := AddsUp.length.add (AddsUp.length.flatMap fun x : Site => x.placed.parts)
  rw [covers.after_eq]
  refine (Nat.zero_add _).trans
    ((AddsUp.countP Finding.isVisit).flatMap_eq_of_singletons visited fun x mem => ?_)
  rw [List.length_singleton, List.flatMap_singleton, Nat.add_comm]
  exact x.placed.countP_isVisit_findings (covers.intact x mem)

/-- Entries of a role that has a table are in it, or left out, or no record of them is due. -/
theorem Covers.table_eq (covers : Covers {} s sites units)
    (distinct : (sites.map fun x => x.entry.offset).Nodup)
    {α : Type} {pick : Finding → Option (Int × α)} {role : Role} {kind : String}
    (table : Finding.Table pick role) (named : role.kind? = some kind) :
    (sites.countP fun x => x.entry.role = role) =
      ((∅ : OffsetMap α).insertMany ((sites.flatMap Site.findings).filterMap pick)).size +
        s.leftOut kind + sites.countP fun x => x.entry.role = role ∧ ¬ x.placed.Due := by
  rw [table.size_eq covers.intact distinct, ← covers.countP_due named]
  exact countP_split _ _ _

/-- **No entry is lost.** -/
theorem Covers.accounts (covers : Covers {} s sites units)
    (distinct : (sites.map fun x => x.entry.offset).Nodup) : s.Accounts sites where
  typedefs := by
    have all := covers.table_eq distinct Finding.table_typeDefinition rfl
    have none (x : Site) : ¬ (x.entry.role = .typeDefinition ∧ ¬ x.placed.Due) :=
      fun ⟨kind, idle⟩ => idle (.inr (.inl kind))
    simp only [none, decide_false, List.countP_false] at all
    rw [all, covers.graph_eq]
    rfl
  baseTypes := by
    have all := covers.table_eq distinct Finding.table_baseType rfl
    have none (x : Site) : ¬ (x.entry.role = .baseType ∧ ¬ x.placed.Due) :=
      fun ⟨kind, idle⟩ => idle (.inl kind)
    simp only [none, decide_false, List.countP_false] at all
    rw [all, covers.graph_eq]
    rfl
  members := covers.members_eq distinct
  globals := by
    have due := covers.countP_due (show Role.kind? .variable = some "variable" from rfl)
    have stored : s.graph.globals.length =
        (sites.flatMap Site.findings).countP fun f => f.role? = some .variable := by
      rw [covers.graph_eq]
      exact length_filterMap_global? _
    have shallow (x : Site) : ((x.entry.role = .variable ∧ x.placed.level ≤ 1) ∧ x.placed.Due) ↔
        x.entry.role = .variable ∧ x.placed.Due := by
      refine ⟨fun ⟨⟨kind, _⟩, due⟩ => ⟨kind, due⟩, fun ⟨kind, due⟩ => ⟨⟨kind, ?_⟩, due⟩⟩
      exact ((Placed.due_iff_of_variable kind).mp due).1
    have idle (x : Site) : ((x.entry.role = .variable ∧ x.placed.level ≤ 1) ∧ ¬ x.placed.Due) ↔
        x.entry.role = .variable ∧ x.placed.level ≤ 1 ∧ x.entry.DeclaredElsewhere := by
      rw [and_assoc]
      refine and_congr_right fun kind => and_congr_right fun level => ?_
      rw [Placed.due_iff_of_variable kind, not_and, Decidable.not_not]
      exact ⟨fun all => all level, fun declared _ => declared⟩
    have split := countP_split (fun x : Site => x.entry.role = .variable ∧ x.placed.level ≤ 1)
      (fun x => x.placed.Due) sites
    simp only [shallow, idle] at split
    rw [split, due, stored]
  qualifiers := by
    have all := covers.table_eq distinct Finding.table_qualifier rfl
    have idle (x : Site) : (x.entry.role = .qualifier ∧ ¬ x.placed.Due) ↔
        x.entry.role = .qualifier ∧ x.entry.typeRef = .absent :=
      and_congr_right fun kind =>
        (not_congr (Placed.due_iff_of_qualifier kind)).trans Decidable.not_not
    simp only [idle] at all
    rw [all, covers.graph_eq]
    rfl
  structures := by
    rw [covers.graph_eq]
    refine .trans ?_ (Finding.table_structure.size_eq covers.intact distinct).symm
    refine ((AddsUp.countP _).flatMap_eq_of_singletons (AddsUp.countP _) fun x mem => ?_).symm
    exact x.placed.countP_aggregate_findings (covers.intact x mem)
  recorded := by
    intro x mem whole
    obtain ⟨s, given, identity, _⟩ := x.placed.findings_of_aggregate (covers.intact x mem) whole
    have held := Finding.table_structure.getElem?_of_record? covers.intact distinct mem given
      (congrArg (fun key => some (key, s)) identity)
    rw [covers.graph_eq]
    exact OffsetMap.mem_of_lookup held
  entries := covers.entries_eq

end Covers

end Survey

end GlobalMap
