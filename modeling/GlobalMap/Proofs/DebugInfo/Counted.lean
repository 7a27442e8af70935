import GlobalMap.Proofs.DebugInfo.Walked

/-! What a walk finds, counted. Each count goes over reached entries one by one: what an entry by
itself adds to the findings of a kind is what the entry stands for, so the same holds of all of
them together. An entry of which a record is due is recorded or left out, once; a member of a
structure is found or left out, once; and each entry is visited once, the children of a structure
along with it. -/
namespace GlobalMap

/-! ## Numbers that add up -/

/-- A number that a list has and that adds up over its parts. -/
structure AddsUp {α : Type} (number : List α → Nat) : Prop where
  nil : number [] = 0
  append : ∀ first second, number (first ++ second) = number first + number second

namespace AddsUp

variable {α β ι : Type} {number : List α → Nat} {other : List β → Nat}

theorem length : AddsUp (α := α) List.length := ⟨rfl, fun _ _ => List.length_append⟩

theorem countP (p : α → Bool) : AddsUp (List.countP p) := ⟨rfl, fun _ _ => List.countP_append⟩

theorem filterMap (f : β → Option α) (adds : AddsUp number) :
    AddsUp fun xs => number (xs.filterMap f) :=
  ⟨adds.nil, fun _ _ => by rw [List.filterMap_append, adds.append]⟩

theorem flatMap (f : β → List α) (adds : AddsUp number) :
    AddsUp fun xs => number (xs.flatMap f) :=
  ⟨adds.nil, fun _ _ => by rw [List.flatMap_append, adds.append]⟩

theorem add {more : List α → Nat} (adds : AddsUp number) (addsMore : AddsUp more) :
    AddsUp fun xs => number xs + more xs := by
  refine ⟨by rw [adds.nil, addsMore.nil], fun first second => ?_⟩
  rw [adds.append, addsMore.append]
  omega

/-- Two numbers that are the same of what each element stands for are the same of a list. -/
theorem flatMap_eq {f : ι → List α} {g : ι → List β} {l : List ι} (adds : AddsUp number)
    (addsOther : AddsUp other) (each : ∀ x ∈ l, number (f x) = other (g x)) :
    number (l.flatMap f) = other (l.flatMap g) := by
  induction l with
  | nil => exact adds.nil.trans addsOther.nil.symm
  | cons x rest ih =>
    obtain ⟨here, others⟩ := List.forall_mem_cons.mp each
    rw [List.flatMap_cons, List.flatMap_cons, adds.append, addsOther.append, here, ih others]

/-- A number of what each element stands for is that of the elements themselves. -/
theorem flatMap_eq_of_singletons {f : β → List α} {l : List β} (adds : AddsUp number)
    (addsOther : AddsUp other) (each : ∀ x ∈ l, number (f x) = other [x]) :
    number (l.flatMap f) = other l := by
  have same := adds.flatMap_eq (g := fun x => [x]) addsOther each
  rwa [List.flatMap_singleton'] at same

/-- Two numbers that are the same of each element are the same of a list. -/
theorem eq_of_singletons {more : List α → Nat} {l : List α} (adds : AddsUp number)
    (addsMore : AddsUp more) (each : ∀ x ∈ l, number [x] = more [x]) : number l = more l := by
  have same := adds.flatMap_eq_of_singletons (f := fun x => [x]) addsMore each
  rwa [List.flatMap_singleton'] at same

end AddsUp

/-- What has a property has another one as well, or has not. -/
theorem countP_split {α : Type} (p q : α → Prop) [DecidablePred p] [DecidablePred q]
    (xs : List α) :
    (xs.countP fun x => p x) =
      (xs.countP fun x => p x ∧ q x) + xs.countP fun x => p x ∧ ¬ q x := by
  rw [List.countP_eq_countP_filter_add xs _ fun x => q x, List.countP_filter, List.countP_filter]
  simp

/-! ## The findings of an entry, counted -/

namespace Finding

/-- The role of the entries that a record is of. -/
def role? : Finding → Option Role
  | baseType _ _ => some .baseType
  | typeDefinition _ _ => some .typeDefinition
  | qualifier _ _ => some .qualifier
  | aggregate _ => some .aggregate
  | global _ => some .variable
  | visited | omitted _ => none

/-- Whether something is recorded of a role, or left out as an entry of a kind. -/
def accountsFor (role : Role) (kind : String) : Finding → Bool
  | omitted o => o.kind = kind
  | f => f.role? = some role

@[simp]
theorem accountsFor_visited (role : Role) (kind : String) :
    visited.accountsFor role kind = false := rfl

/-- The number of findings that something is left out as an entry of a kind. -/
def leftOut (kind : String) (findings : List Finding) : Nat :=
  (findings.filterMap omission?).countP fun o => o.kind = kind

theorem addsUp_leftOut (kind : String) : AddsUp (leftOut kind) :=
  (AddsUp.countP _).filterMap omission?

/-- Nothing is both recorded and left out. -/
theorem countP_accountsFor (role : Role) (kind : String) (findings : List Finding) :
    findings.countP (accountsFor role kind) =
      findings.countP (fun f => f.role? = some role) + leftOut kind findings := by
  have both := (AddsUp.countP fun f : Finding => f.role? = some role).add (addsUp_leftOut kind)
  refine (AddsUp.countP (accountsFor role kind)).eq_of_singletons both fun f _ => ?_
  cases f with
  | omitted o => simp [accountsFor, leftOut, omission?, role?, List.countP_cons]
  | visited | baseType | typeDefinition | qualifier | aggregate | global =>
    simp [accountsFor, leftOut, omission?]

/-- The number of members of found structures and of members that are left out. -/
def accountedMembers (findings : List Finding) : Nat :=
  ((findings.filterMap structure?).flatMap fun row => row.2.members).length +
    leftOut "member" findings

theorem addsUp_accountedMembers : AddsUp accountedMembers :=
  ((AddsUp.length.flatMap _).filterMap structure?).add (addsUp_leftOut "member")

end Finding

namespace Role

/-- The kinds of omissions tell roles apart. -/
theorem eq_of_kind? {role role' : Role} {kind : String} (named : role.kind? = some kind)
    (also : role'.kind? = some kind) : role = role' := by
  have same := named.trans also.symm
  clear also
  cases role <;> cases role'
  all_goals first
    | rfl
    | cases named; done
    | exact absurd same (by decide)

theorem kind?_ne_member (role : Role) : role.kind? ≠ some "member" := by
  cases role <;> decide

end Role

namespace Entry

variable {encoding : Dwarf.Encoding}

/-- Of a child of a structure no record is found, and no omission but as a member. -/
theorem not_accountsFor_of_mem_findChild {role : Role} {kind : String} {child : Entry} {f : Finding}
    (named : role.kind? = some kind) (mem : f ∈ findChild encoding child) :
    ¬ f.accountsFor role kind := by
  have other : "member" ≠ kind := fun same => role.kind?_ne_member (named.trans (by rw [same]))
  rcases childCase encoding child with ⟨_, _, found⟩ | ⟨_, _, _, found⟩ | ⟨reason, _, _, found⟩
  all_goals
    rw [found] at mem
    simp only [List.mem_cons, List.not_mem_nil, or_false] at mem
  · rw [mem]
    simp [Finding.accountsFor, Finding.role?]
  · rw [mem]
    simp [Finding.accountsFor, Finding.role?]
  · rcases mem with rfl | rfl
    · simp [Finding.accountsFor, Finding.role?]
    · simpa [Finding.accountsFor, leaveOut] using other

/-- A child of a structure that is a member is found or left out. -/
theorem accountedMembers_findChild (encoding : Dwarf.Encoding) (child : Entry) :
    (child.memberOf? encoding).toList.length +
        Finding.accountedMembers (findChild encoding child) =
      [child].countP fun c => c.role = .member := by
  rcases childCase encoding child with
    ⟨plain, nothing, found⟩ | ⟨m, kind, given, found⟩ | ⟨reason, kind, nothing, found⟩
  · rw [nothing, found, List.countP_singleton, if_neg (by simpa using plain)]
    rfl
  · rw [given, found, List.countP_singleton, if_pos (by simpa using kind)]
    rfl
  · rw [nothing, found, List.countP_singleton, if_pos (by simpa using kind)]
    rfl

theorem accountedMembers_children (encoding : Dwarf.Encoding) (children : List Entry) :
    (children.filterMap (memberOf? encoding)).length +
        Finding.accountedMembers (children.flatMap (findChild encoding)) =
      children.countP fun c => c.role = .member := by
  have both := (AddsUp.length.filterMap (memberOf? encoding)).add
    (Finding.addsUp_accountedMembers.flatMap (findChild encoding))
  refine both.eq_of_singletons (AddsUp.countP _) fun child _ => ?_
  have single := accountedMembers_findChild encoding child
  cases given : child.memberOf? encoding with
  | none =>
    rw [given] at single
    rwa [List.filterMap_cons_none given, List.flatMap_singleton]
  | some m =>
    rw [given] at single
    rwa [List.filterMap_cons_some given, List.flatMap_singleton]

/-- Every child of a structure is visited once. -/
theorem countP_isVisit_children (encoding : Dwarf.Encoding) (children : List Entry) :
    (children.flatMap (findChild encoding)).countP Finding.isVisit = children.length := by
  have visits := (AddsUp.countP Finding.isVisit).flatMap (findChild encoding)
  refine visits.eq_of_singletons AddsUp.length fun child _ => ?_
  rcases childCase encoding child with ⟨_, _, found⟩ | ⟨_, _, _, found⟩ | ⟨reason, _, _, found⟩
  all_goals
    rw [List.flatMap_singleton, found]
    rfl

namespace Placed

variable {p : Placed}

/-- The children that are visited along with an entry. -/
def parts (p : Placed) : List Entry :=
  if p.entry.role = .aggregate then p.entry.children else []

theorem role?_of_mayGive {f : Finding} (may : p.MayGive f) : f.role? = some p.entry.role := by
  cases may with
  | _ => simp only [Finding.role?, *]

theorem accountsFor_of_mayGive {f : Finding} {role : Role} {kind : String} (may : p.MayGive f) :
    f.accountsFor role kind = decide (p.entry.role = role) := by
  cases may with
  | _ => simp [Finding.accountsFor, Finding.role?, *]

theorem accountsFor_leaveOut {role : Role} {kind kind' : String} {reason : OmissionReason}
    (named : role.kind? = some kind) (called : p.entry.role.kind? = some kind') :
    (p.entry.leaveOut kind' reason).accountsFor role kind = decide (p.entry.role = role) := by
  have same : kind' = kind ↔ p.entry.role = role := by
    constructor
    · exact fun same => Role.eq_of_kind? (called.trans (by rw [same])) named
    · exact fun same => Option.some.inj (called.symm.trans (by rw [same, named]))
  simp only [leaveOut, Finding.accountsFor, same]

/-- **Recorded or left out, once.** An entry of which a record is due is accounted for once, under
its own role, and no other entry is. -/
theorem countP_accountsFor_findings {role : Role} {kind : String} (named : role.kind? = some kind)
    (intact : p.Intact encoding) :
    (p.findings encoding).countP (Finding.accountsFor role kind) =
      [p].countP fun p => p.entry.role = role ∧ p.Due := by
  by_cases whole : p.entry.role = .aggregate
  · obtain ⟨s, _, _, _, found⟩ := findings_of_aggregate p intact whole
    have other : role ≠ .aggregate := fun same => by rw [same] at named; cases named
    have none : (p.findings encoding).countP (Finding.accountsFor role kind) = 0 := by
      rw [List.countP_eq_zero, found]
      intro f mem
      rcases List.mem_cons.mp mem with rfl | mem
      · simp [Finding.accountsFor, Finding.role?]
      rcases List.mem_append.mp mem with mem | mem
      · obtain ⟨child, _, mem⟩ := List.mem_flatMap.mp mem
        exact not_accountsFor_of_mem_findChild named mem
      · rw [List.mem_singleton.mp mem]
        simpa [Finding.accountsFor, Finding.role?] using other.symm
    rw [none]
    simp [whole, other.symm]
  · rcases fate p intact whole with
      ⟨f, due, given, found⟩ | ⟨kind', reason, due, called, _, found⟩ | ⟨idle, _, found⟩
    · rw [found]
      simp [List.countP_cons, accountsFor_of_mayGive (mayGive_of_record? given), due]
    · rw [found]
      simp [List.countP_cons, accountsFor_leaveOut named called, due]
    · rw [found]
      simp [idle]

/-- **Members are found or left out, once.** -/
theorem accountedMembers_findings (intact : p.Intact encoding) :
    Finding.accountedMembers (p.findings encoding) =
      p.parts.countP fun c => c.role = .member := by
  by_cases whole : p.entry.role = .aggregate
  · obtain ⟨s, _, _, members, found⟩ := findings_of_aggregate p intact whole
    have parts : p.parts = p.entry.children := if_pos whole
    have last : Finding.accountedMembers [.aggregate s] = s.members.length := by
      simp [Finding.accountedMembers, Finding.structure?, Finding.leftOut, Finding.omission?]
    have split : p.findings encoding =
        [.visited] ++ (p.entry.children.flatMap (findChild encoding) ++ [.aggregate s]) := found
    rw [split, Finding.addsUp_accountedMembers.append, Finding.addsUp_accountedMembers.append, last,
      members, parts, ← accountedMembers_children encoding p.entry.children]
    change 0 + _ = _
    omega
  · have none : p.parts = [] := if_neg whole
    rw [none]
    rcases fate p intact whole with
      ⟨f, _, given, found⟩ | ⟨kind', reason, _, called, _, found⟩ | ⟨_, _, found⟩
    · rw [found]
      cases mayGive_of_record? given with
      | aggregate s kind => exact absurd kind whole
      | baseType | typeDefinition | qualifier | global => rfl
    · have other : kind' ≠ "member" := fun same => Role.kind?_ne_member _ (same ▸ called)
      rw [found]
      simp [Finding.accountedMembers, Finding.leftOut, leaveOut, Finding.omission?,
        Finding.structure?, List.filterMap_cons, other]
    · rw [found]
      rfl

/-- An entry is visited once, and the children of a structure along with it. -/
theorem countP_isVisit_findings (intact : p.Intact encoding) :
    (p.findings encoding).countP Finding.isVisit = (p.entry :: p.parts).length := by
  by_cases whole : p.entry.role = .aggregate
  · obtain ⟨s, _, _, _, found⟩ := findings_of_aggregate p intact whole
    have parts : p.parts = p.entry.children := if_pos whole
    rw [found, parts, List.countP_cons_of_pos rfl, List.countP_append,
      countP_isVisit_children encoding p.entry.children]
    rfl
  · have none : p.parts = [] := if_neg whole
    rw [none]
    rcases fate p intact whole with
      ⟨f, _, given, found⟩ | ⟨kind', reason, _, _, _, found⟩ | ⟨_, _, found⟩
    · rw [found]
      cases mayGive_of_record? given <;> rfl
    · rw [found]
      rfl
    · rw [found]
      rfl

/-- Every structure is recorded once. -/
theorem countP_aggregate_findings (intact : p.Intact encoding) :
    ((p.findings encoding).countP fun f => f.role? = some .aggregate) =
      [p].countP fun p => p.entry.role = .aggregate := by
  have only : ((p.findings encoding).countP fun f => f.role? = some .aggregate) =
      (p.record? encoding).toList.countP fun f => f.role? = some .aggregate := by
    rw [← filter_findings p intact, List.countP_filter]
    congr 1
    funext f
    cases f <;> rfl
  rw [only]
  by_cases whole : p.entry.role = .aggregate
  · obtain ⟨s, given, _⟩ := findings_of_aggregate p intact whole
    rw [given]
    simp [whole, Finding.role?]
  · cases given : p.record? encoding with
    | none => simp [whole]
    | some f =>
      have role : f.role? = some p.entry.role := role?_of_mayGive (mayGive_of_record? given)
      simp [whole, role]

end Placed

end Entry

end GlobalMap
