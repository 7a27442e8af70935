import GlobalMap.Proofs.DebugInfo.Reached

/-! What a walk finds at an entry by itself. It finds what the entry gives, or that the entry is
left out, or nothing; which one follows from the role of the entry and from what it is complete
with. A structure stands apart: it is recorded whatever it lacks, and its members are found or left
out one by one. -/
namespace GlobalMap

variable {encoding : Dwarf.Encoding} {level : Int} {e : Entry} {above : List Entry}

namespace Finding

/-- Whether a finding goes into the type graph. -/
def isRecord : Finding → Bool
  | visited | omitted _ => false
  | _ => true

end Finding

namespace Attribute

variable {α : Type} {a : Attribute α}

theorem toOption_read_join (a : Attribute α) : a.read.toOption.join = a.value? := by
  cases a with
  | absent => rfl
  | value b => rfl
  | unreadable reason => rfl

end Attribute

namespace Entry

theorem toOption_offsetOf (encoding : Dwarf.Encoding) (place : Place) :
    (offsetOf encoding place).toOption = innerOffset? encoding place := by
  cases place with
  | constant n => rfl
  | program bytes =>
    simp only [offsetOf, innerOffset?]
    cases Location.locate encoding bytes (some 0) with
    | error fault => rfl
    | ok result =>
      obtain ⟨kind, value⟩ := result
      cases kind with | _ => rfl

theorem toOption_addressOf (encoding : Dwarf.Encoding) (place : Place) :
    (addressOf encoding place).toOption = fileAddress? encoding place := by
  cases place with
  | constant n => rfl
  | program bytes =>
    simp only [addressOf, fileAddress?]
    cases Location.locate encoding bytes none with
    | error fault => rfl
    | ok result =>
      obtain ⟨kind, value⟩ := result
      cases kind with | _ => rfl

theorem role_eq_member_iff (e : Entry) : e.role = .member ↔ e.tag = "DW_TAG_member" := by
  unfold role Role.ofTag
  split
  all_goals simp_all

/-- An entry makes a member if and only if nothing that a member needs is missing. -/
theorem toOption_asMember (encoding : Dwarf.Encoding) (e : Entry) :
    (e.asMember encoding).toOption = do
      let name ← e.name.value?
      let typeRef ← e.typeRef.value?
      let offset ← e.memberLocation.value?.bind (innerOffset? encoding)
      return { name, typeRef, offset } := by
  unfold asMember nameAndType
  cases e.name with
  | unreadable reason => rfl
  | absent => cases e.typeRef <;> cases e.memberLocation <;> rfl
  | value name =>
    cases e.typeRef with
    | unreadable reason => rfl
    | absent => cases e.memberLocation <;> rfl
    | value typeRef =>
      cases e.memberLocation with
      | unreadable reason => rfl
      | absent => rfl
      | value place =>
        simp only [Attribute.value?, Option.bind_eq_bind, Option.bind_some, ← toOption_offsetOf]
        change (offsetOf encoding place >>= _).toOption = _
        cases offsetOf encoding place with
        | error reason => rfl
        | ok offset => rfl

theorem membersAmong_eq (encoding : Dwarf.Encoding) (children : List Entry) :
    membersAmong encoding children = children.filterMap (memberOf? encoding) := by
  unfold membersAmong
  congr 1
  funext child
  simp only [role_eq_member_iff, toOption_asMember, memberOf?]

/-- Name and type are found to be what they are completed to, or not found for want of one
of them, unless damage is met. -/
theorem identityOf_cases (e : Entry) :
    e.identityOf = .ok (e.completedName, e.completedType) ∨
      (∃ reason, e.identityOf = .error (.unusable reason)) ∧
        (e.completedName = none ∨ e.completedType = none) ∨
      ∃ damage, e.specification = .value (.error damage) ∧
        e.identityOf = .error (.damaged damage) := by
  obtain ⟨tag, offset, name, typeRef, location, memberLocation, declared, specification, children,
    failure⟩ := e
  cases name with
  | unreadable reason => exact .inr (.inl ⟨⟨_, rfl⟩, .inl rfl⟩)
  | value name =>
    cases typeRef with
    | unreadable reason => exact .inr (.inl ⟨⟨_, rfl⟩, .inr rfl⟩)
    | value typeRef => exact .inl rfl
    | absent =>
      cases specification with
      | absent => exact .inl rfl
      | unreadable reason => exact .inr (.inl ⟨⟨_, rfl⟩, .inr rfl⟩)
      | value outcome =>
        cases outcome with
        | error damage => exact .inr (.inr ⟨damage, rfl, rfl⟩)
        | ok declaration =>
          obtain ⟨_, _, declaredType⟩ := declaration
          cases declaredType with
          | absent => exact .inl rfl
          | value typeRef => exact .inl rfl
          | unreadable reason => exact .inr (.inl ⟨⟨_, rfl⟩, .inr rfl⟩)
  | absent =>
    cases typeRef with
    | unreadable reason => exact .inr (.inl ⟨⟨_, rfl⟩, .inr rfl⟩)
    | value typeRef =>
      cases specification with
      | absent => exact .inl rfl
      | unreadable reason => exact .inr (.inl ⟨⟨_, rfl⟩, .inl rfl⟩)
      | value outcome =>
        cases outcome with
        | error damage => exact .inr (.inr ⟨damage, rfl, rfl⟩)
        | ok declaration =>
          obtain ⟨_, declaredName, _⟩ := declaration
          cases declaredName with
          | absent => exact .inl rfl
          | value name => exact .inl rfl
          | unreadable reason => exact .inr (.inl ⟨⟨_, rfl⟩, .inl rfl⟩)
    | absent =>
      cases specification with
      | absent => exact .inl rfl
      | unreadable reason => exact .inr (.inl ⟨⟨_, rfl⟩, .inl rfl⟩)
      | value outcome =>
        cases outcome with
        | error damage => exact .inr (.inr ⟨damage, rfl, rfl⟩)
        | ok declaration =>
          obtain ⟨_, declaredName, declaredType⟩ := declaration
          cases declaredName with
          | unreadable reason => exact .inr (.inl ⟨⟨_, rfl⟩, .inl rfl⟩)
          | absent =>
            cases declaredType with
            | absent => exact .inl rfl
            | value typeRef => exact .inl rfl
            | unreadable reason => exact .inr (.inl ⟨⟨_, rfl⟩, .inl rfl⟩)
          | value name =>
            cases declaredType with
            | absent => exact .inl rfl
            | value typeRef => exact .inl rfl
            | unreadable reason => exact .inr (.inl ⟨⟨_, rfl⟩, .inr rfl⟩)

theorem asVariable_of_place {place : Place} (encoding : Dwarf.Encoding)
    (located : e.location = .value place) :
    e.asVariable encoding = (do
      match ← e.identityOf with
      | (some name, some typeRef) =>
        let address ← (addressOf encoding place).mapError .unusable
        return some { name, address, typeRef }
      | _ => throw (.unusable .incompleteVariable)) := by
  unfold asVariable
  rw [located]
  cases e.identityOf with
  | error obstacle => rfl
  | ok identity =>
    obtain ⟨name, typeRef⟩ := identity
    cases name <;> cases typeRef <;> rfl

/-- A variable that has no location and is only declared is defined elsewhere. -/
def DeclaredElsewhere (e : Entry) : Prop :=
  e.location = .absent ∧ e.declared = true

instance (e : Entry) : Decidable e.DeclaredElsewhere :=
  inferInstanceAs (Decidable (_ ∧ _))

/-- What may come of a variable. -/
inductive VariableCase (encoding : Dwarf.Encoding) (e : Entry) : Prop where
  | elsewhere (declared : e.DeclaredElsewhere) (nothing : e.globalOf? encoding = none)
      (outcome : e.asVariable encoding = .ok none)
  | complete (v : Variable) (defined : ¬ e.DeclaredElsewhere)
      (given : e.globalOf? encoding = some v) (outcome : e.asVariable encoding = .ok (some v))
  | unusable (reason : OmissionReason) (defined : ¬ e.DeclaredElsewhere)
      (nothing : e.globalOf? encoding = none)
      (outcome : e.asVariable encoding = .error (.unusable reason))
  | damaged (damage : Damage) (met : e.specification = .value (.error damage))
      (outcome : e.asVariable encoding = .error (.damaged damage))

theorem globalOf?_of_unplaced (unplaced : e.location.value? = none) :
    e.globalOf? encoding = none := by
  unfold globalOf?
  rw [unplaced]
  cases e.completedName <;> cases e.completedType <;> rfl

/-- A variable that is not defined elsewhere is complete if and only if nothing that it needs
is missing. -/
theorem variableCase (encoding : Dwarf.Encoding) (e : Entry) : VariableCase encoding e := by
  have identity := identityOf_cases e
  cases located : e.location with
  | unreadable reason =>
    have nothing : e.globalOf? encoding = none := globalOf?_of_unplaced (by rw [located]; rfl)
    refine .unusable (.unreadable reason) ?_ nothing ?_
    · exact fun declared => by rw [DeclaredElsewhere, located] at declared; cases declared.1
    · rw [asVariable, located]
      rfl
  | absent =>
    have nothing : e.globalOf? encoding = none := globalOf?_of_unplaced (by rw [located]; rfl)
    cases declared : e.declared with
    | true =>
      refine .elsewhere ⟨located, declared⟩ nothing ?_
      rw [asVariable, located, declared]
      rfl
    | false =>
      have defined : ¬ e.DeclaredElsewhere :=
        fun both => by rw [DeclaredElsewhere, declared] at both; cases both.2
      rcases identity with found | ⟨⟨reason, found⟩, _⟩ | ⟨damage, met, found⟩
      · refine .unusable .incompleteVariable defined nothing ?_
        rw [asVariable, located, declared, found]
        cases e.completedName <;> cases e.completedType <;> rfl
      · refine .unusable reason defined nothing ?_
        rw [asVariable, located, declared, found]
        rfl
      · refine .damaged damage met ?_
        rw [asVariable, located, declared, found]
        rfl
  | value place =>
    have defined : ¬ e.DeclaredElsewhere :=
      fun both => by rw [DeclaredElsewhere, located] at both; cases both.1
    have outcome := asVariable_of_place encoding located
    have given : e.globalOf? encoding = do
        let name ← e.completedName
        let typeRef ← e.completedType
        let address ← (addressOf encoding place).toOption
        return { name, address, typeRef } := by
      rw [globalOf?, located, toOption_addressOf]
      rfl
    rcases identity with found | ⟨⟨reason, found⟩, missing⟩ | ⟨damage, met, found⟩
    · rw [found] at outcome
      cases named : e.completedName with
      | none =>
        rw [named] at outcome given
        exact .unusable _ defined given outcome
      | some name =>
        cases typed : e.completedType with
        | none =>
          rw [named, typed] at outcome given
          exact .unusable _ defined given outcome
        | some typeRef =>
          rw [named, typed] at outcome given
          cases addressed : addressOf encoding place with
          | ok address =>
            rw [addressed] at outcome given
            exact .complete _ defined given outcome
          | error reason =>
            rw [addressed] at outcome given
            exact .unusable _ defined given outcome
    · rw [found] at outcome
      refine .unusable reason defined ?_ outcome
      rw [given]
      rcases missing with missing | missing
      · rw [missing]
        rfl
      · rw [missing]
        cases e.completedName <;> rfl
    · rw [found] at outcome
      exact .damaged damage met outcome

theorem handled_iff_role (e : Entry) : e.handled ↔ e.role ≠ .member ∧ e.role ≠ .other := by
  unfold handled handledTags role Role.ofTag
  split
  all_goals simp_all

theorem ownTrail?_eq_none_iff : e.ownTrail? encoding level = none ↔ ¬ e.handled := by
  rw [handled_iff_role]
  unfold ownTrail?
  cases e.role <;> simp

/-- What a child of a structure is found to be. -/
inductive ChildCase (encoding : Dwarf.Encoding) (child : Entry) : Prop where
  | other (kind : child.role ≠ .member) (nothing : child.memberOf? encoding = none)
      (found : findChild encoding child = [.visited])
  | complete (m : Member) (kind : child.role = .member) (given : child.memberOf? encoding = some m)
      (found : findChild encoding child = [.visited])
  | unusable (reason : OmissionReason) (kind : child.role = .member)
      (nothing : child.memberOf? encoding = none)
      (found : findChild encoding child = [.visited, child.leaveOut "member" reason])

theorem childCase (encoding : Dwarf.Encoding) (child : Entry) : ChildCase encoding child := by
  have given : child.memberOf? encoding =
      if child.role = .member then (child.asMember encoding).toOption else none := by
    simp only [memberOf?, role_eq_member_iff, toOption_asMember]
  by_cases kind : child.role = .member
  · rw [if_pos kind] at given
    cases outcome : child.asMember encoding with
    | ok m =>
      rw [outcome] at given
      exact .complete m kind given (by rw [findChild, if_pos kind, outcome])
    | error reason =>
      rw [outcome] at given
      exact .unusable reason kind given (by rw [findChild, if_pos kind, outcome])
  · rw [if_neg kind] at given
    exact .other kind given (by rw [findChild, if_neg kind])

namespace Placed

/-- What a walk finds at an entry by itself. -/
def findings (encoding : Dwarf.Encoding) (p : Placed) : List Finding :=
  .visited :: ((p.entry.ownTrail? encoding p.level).map Trail.findings).getD []

/-- A walk meets no damage at an entry. -/
def Intact (encoding : Dwarf.Encoding) (p : Placed) : Prop :=
  match p.entry.ownTrail? encoding p.level with
  | some own => own.failure = none
  | none => p.entry.failure = none

/-- A record is due of an entry that is no structure. None is of a qualifier without a type, nor
of a variable that is local or defined elsewhere. -/
def Due (p : Placed) : Prop :=
  p.entry.role = .baseType ∨ p.entry.role = .typeDefinition ∨
    (p.entry.role = .qualifier ∧ p.entry.typeRef ≠ .absent) ∨
    (p.entry.role = .variable ∧ p.level ≤ 1 ∧ ¬ p.entry.DeclaredElsewhere)

instance : DecidablePred Due :=
  fun _ => inferInstanceAs (Decidable (_ ∨ _ ∨ _ ∨ _))

theorem due_iff_of_qualifier {p : Placed} (kind : p.entry.role = .qualifier) :
    p.Due ↔ p.entry.typeRef ≠ .absent := by
  simp [Due, kind]

theorem due_iff_of_variable {p : Placed} (kind : p.entry.role = .variable) :
    p.Due ↔ p.level ≤ 1 ∧ ¬ p.entry.DeclaredElsewhere := by
  simp [Due, kind]

/-- What an entry gives, by its role. -/
theorem record?_eq (encoding : Dwarf.Encoding) (p : Placed) : p.record? encoding =
    match p.entry.role with
    | .baseType => p.entry.name.value?.map (.baseType p.entry.offset)
    | .typeDefinition => do
      let name ← p.entry.name.value?
      let target ← p.entry.typeRef.value?
      return .typeDefinition p.entry.offset ⟨name, target⟩
    | .qualifier => p.entry.typeRef.value?.map (.qualifier p.entry.offset)
    | .aggregate => some (.aggregate {
        name := p.entry.name.value?
        identity := p.entry.offset
        members := p.entry.children.filterMap (memberOf? encoding) })
    | .variable => if p.level ≤ 1 then (p.entry.globalOf? encoding).map .global else none
    | .member | .other => none := by
  unfold record?
  split
  case h_8 =>
    have unhandled : ¬ p.entry.handled := by simp_all [handled, handledTags]
    rw [handled_iff_role] at unhandled
    cases kind : p.entry.role <;> simp_all
  all_goals
    rename_i tag
    simp only [role, tag, Role.ofTag]

/-- Which records an entry may give. -/
inductive MayGive (p : Placed) : Finding → Prop where
  | baseType (name : String) (kind : p.entry.role = .baseType) :
      MayGive p (.baseType p.entry.offset name)
  | typeDefinition (definition : TypeDefinition) (kind : p.entry.role = .typeDefinition) :
      MayGive p (.typeDefinition p.entry.offset definition)
  | qualifier (target : Int) (kind : p.entry.role = .qualifier) :
      MayGive p (.qualifier p.entry.offset target)
  | aggregate (s : Structure) (kind : p.entry.role = .aggregate)
      (identity : s.identity = p.entry.offset) : MayGive p (.aggregate s)
  | global (v : Variable) (kind : p.entry.role = .variable) : MayGive p (.global v)

theorem mayGive_of_record? {p : Placed} {f : Finding} (given : p.record? encoding = some f) :
    p.MayGive f := by
  rw [record?_eq] at given
  cases kind : p.entry.role with
  | baseType =>
    rw [kind] at given
    obtain ⟨name, _, rfl⟩ := Option.map_eq_some_iff.mp given
    exact .baseType name kind
  | typeDefinition =>
    rw [kind] at given
    obtain ⟨name, _, given⟩ := Option.bind_eq_some_iff.mp given
    obtain ⟨target, _, given⟩ := Option.bind_eq_some_iff.mp given
    obtain rfl := Option.some.inj given
    exact .typeDefinition _ kind
  | qualifier =>
    rw [kind] at given
    obtain ⟨target, _, rfl⟩ := Option.map_eq_some_iff.mp given
    exact .qualifier target kind
  | aggregate =>
    rw [kind] at given
    obtain rfl := Option.some.inj given
    exact .aggregate _ kind rfl
  | «variable» =>
    rw [kind] at given
    by_cases shallow : p.level ≤ 1
    · simp only [shallow, if_true] at given
      obtain ⟨v, _, rfl⟩ := Option.map_eq_some_iff.mp given
      exact .global v kind
    · simp only [shallow, if_false] at given
      cases given
  | member | other =>
    rw [kind] at given
    cases given

end Placed

end Entry

/-- The kind that an entry of a role is left out as, if it is ever left out by itself. -/
def Role.kind? : Role → Option String
  | .baseType => some "base type"
  | .typeDefinition => some "typedef"
  | .qualifier => some "qualifier"
  | .variable => some "variable"
  | .aggregate | .member | .other => none

namespace Entry.Placed

/-- What comes of a reached entry that is no structure. -/
inductive Fate (encoding : Dwarf.Encoding) (p : Placed) : Prop where
  | recorded (f : Finding) (due : p.Due) (given : p.record? encoding = some f)
      (found : p.findings encoding = [.visited, f])
  | leftOut (kind : String) (reason : OmissionReason) (due : p.Due)
      (named : p.entry.role.kind? = some kind) (nothing : p.record? encoding = none)
      (found : p.findings encoding = [.visited, p.entry.leaveOut kind reason])
  | passed (idle : ¬ p.Due) (nothing : p.record? encoding = none)
      (found : p.findings encoding = [.visited])

theorem fate (p : Placed) (intact : p.Intact encoding) (plain : p.entry.role ≠ .aggregate) :
    Fate encoding p := by
  have given := record?_eq encoding p
  have found (own : Trail) (held : p.entry.ownTrail? encoding p.level = some own) :
      p.findings encoding = .visited :: own.findings := by rw [findings, held]; rfl
  cases kind : p.entry.role with
  | baseType =>
    have due : p.Due := .inl kind
    have named : p.entry.role.kind? = some "base type" := by rw [kind]; rfl
    have found := found ⟨[p.entry.findBaseType], none⟩ (by rw [ownTrail?, kind])
    rw [kind] at given
    unfold findBaseType at found
    cases name : p.entry.name with
    | absent => rw [name] at given found; exact .leftOut _ _ due named given found
    | value name' => rw [name] at given found; exact .recorded _ due given found
    | unreadable reason => rw [name] at given found; exact .leftOut _ _ due named given found
  | typeDefinition =>
    have due : p.Due := .inr (.inl kind)
    have named : p.entry.role.kind? = some "typedef" := by rw [kind]; rfl
    have found := found ⟨[p.entry.findTypeDefinition], none⟩ (by rw [ownTrail?, kind])
    rw [kind] at given
    unfold findTypeDefinition nameAndType at found
    cases name : p.entry.name with
    | unreadable reason => rw [name] at given found; exact .leftOut _ _ due named given found
    | absent =>
      rw [name] at given found
      cases type : p.entry.typeRef with
      | _ => rw [type] at found; exact .leftOut _ _ due named given found
    | value name' =>
      rw [name] at given found
      cases type : p.entry.typeRef with
      | absent => rw [type] at given found; exact .leftOut _ _ due named given found
      | value target => rw [type] at given found; exact .recorded _ due given found
      | unreadable reason => rw [type] at given found; exact .leftOut _ _ due named given found
  | qualifier =>
    have named : p.entry.role.kind? = some "qualifier" := by rw [kind]; rfl
    have found := found ⟨p.entry.findQualifier, none⟩ (by rw [ownTrail?, kind])
    have due (typed : p.entry.typeRef ≠ .absent) : p.Due := .inr (.inr (.inl ⟨kind, typed⟩))
    rw [kind] at given
    unfold findQualifier at found
    cases type : p.entry.typeRef with
    | absent =>
      rw [type] at given found
      exact .passed (by simp [Due, kind, type]) given found
    | value target =>
      rw [type] at given found due
      exact .recorded _ (due (by simp)) given found
    | unreadable reason =>
      rw [type] at given found due
      exact .leftOut _ _ (due (by simp)) named given found
  | aggregate => exact absurd kind plain
  | «variable» =>
    have named : p.entry.role.kind? = some "variable" := by rw [kind]; rfl
    have own :
        p.entry.ownTrail? encoding p.level = some (p.entry.variableTrail encoding p.level) := by
      rw [ownTrail?, kind]
    have found := found _ own
    rw [Intact, own] at intact
    rw [kind] at given
    unfold variableTrail maxGlobalLevel at found intact
    by_cases shallow : p.level ≤ 1
    · have due (defined : ¬ p.entry.DeclaredElsewhere) : p.Due :=
        .inr (.inr (.inr ⟨kind, shallow, defined⟩))
      rw [if_neg (by omega)] at found intact
      simp only [shallow, if_true] at given
      rcases variableCase encoding p.entry with
        ⟨declared, nothing, outcome⟩ | ⟨v, defined, complete, outcome⟩ |
          ⟨reason, defined, nothing, outcome⟩ | ⟨damage, _, outcome⟩
      · rw [outcome] at found
        rw [nothing] at given
        exact .passed (by simp [Due, kind, declared]) given found
      · rw [outcome] at found
        rw [complete] at given
        exact .recorded _ (due defined) given found
      · rw [outcome] at found
        rw [nothing] at given
        exact .leftOut _ _ (due defined) named given found
      · rw [outcome] at intact
        cases intact
    · rw [if_pos (by omega)] at found
      simp only [shallow, if_false] at given
      exact .passed (by simp [Due, kind, shallow]) given found
  | member =>
    rw [kind] at given
    exact .passed (by simp [Due, kind]) given (by rw [findings, ownTrail?, kind]; rfl)
  | other =>
    rw [kind] at given
    exact .passed (by simp [Due, kind]) given (by rw [findings, ownTrail?, kind]; rfl)

end Entry.Placed

namespace Trail

variable {first second : Trail}

theorem failure_andThen :
    (first.andThen second).failure = none ↔ first.failure = none ∧ second.failure = none := by
  unfold andThen
  cases failed : first.failure with
  | some damage => simp [failed]
  | none => simp

theorem findings_andThen (intact : first.failure = none) :
    (first.andThen second).findings = first.findings ++ second.findings := by
  rw [andThen, intact]

end Trail

namespace Entry.Placed

/-- What comes of a reached structure. -/
theorem findings_of_aggregate (p : Placed) (intact : p.Intact encoding)
    (kind : p.entry.role = .aggregate) :
    ∃ s, p.record? encoding = some (.aggregate s) ∧ s.identity = p.entry.offset ∧
      s.members = p.entry.children.filterMap (memberOf? encoding) ∧
      p.findings encoding =
        .visited :: (p.entry.children.flatMap (findChild encoding) ++ [.aggregate s]) := by
  have own : p.entry.ownTrail? encoding p.level = some (p.entry.structureTrail encoding) := by
    rw [ownTrail?, kind]
  have given := record?_eq encoding p
  rw [kind] at given
  refine ⟨_, given, rfl, rfl, ?_⟩
  have whole : (p.entry.structureTrail encoding).failure = none := by
    unfold Intact at intact
    rwa [own] at intact
  rw [findings, own, Option.map_some, Option.getD_some, structureTrail, Trail.andFind,
    Trail.findings_andThen (Trail.failure_andThen.mp whole).1, asStructure, membersAmong_eq,
    Attribute.toOption_read_join]

/-- At an undamaged entry no damage is met. -/
theorem intact_of_undamaged (p : Placed) (undamaged : p.entry.Undamaged) : p.Intact encoding := by
  unfold Intact ownTrail?
  cases kind : p.entry.role with
  | baseType | typeDefinition | qualifier => rfl
  | aggregate => exact Trail.failure_andThen.mpr ⟨undamaged.1, rfl⟩
  | «variable» =>
    change (p.entry.variableTrail encoding p.level).failure = none
    unfold variableTrail
    rcases variableCase encoding p.entry with
      ⟨_, _, outcome⟩ | ⟨v, _, _, outcome⟩ | ⟨reason, _, _, outcome⟩ | ⟨damage, met, _⟩
    · rw [outcome]
      split <;> rfl
    · rw [outcome]
      split <;> rfl
    · rw [outcome]
      split <;> rfl
    · have sound := undamaged.2
      rw [met] at sound
      cases sound
  | member | other => exact undamaged.1

theorem filter_findChild (encoding : Dwarf.Encoding) (child : Entry) :
    (findChild encoding child).filter Finding.isRecord = [] := by
  rcases childCase encoding child with ⟨_, _, found⟩ | ⟨m, _, _, found⟩ | ⟨reason, _, _, found⟩
  all_goals
    rw [found]
    rfl

/-- An entry gives one record at most. -/
theorem filter_findings (p : Placed) (intact : p.Intact encoding) :
    (p.findings encoding).filter Finding.isRecord = (p.record? encoding).toList := by
  by_cases kind : p.entry.role = .aggregate
  · obtain ⟨s, given, _, _, found⟩ := findings_of_aggregate p intact kind
    have children :
        (p.entry.children.flatMap (findChild encoding)).filter Finding.isRecord = [] := by
      rw [List.filter_flatMap]
      simp only [filter_findChild, List.flatMap_eq_nil_iff, implies_true]
    rw [found, given, List.filter_cons_of_neg (by decide), List.filter_append, children]
    rfl
  · rcases fate p intact kind with ⟨f, _, given, found⟩ | ⟨_, reason, _, _, nothing, found⟩ |
      ⟨_, nothing, found⟩
    · rw [found, given, List.filter_cons_of_neg (by decide), List.filter_cons_of_pos]
      · rfl
      · cases mayGive_of_record? given <;> rfl
    · rw [found, nothing]
      rfl
    · rw [found, nothing]
      rfl

theorem filter_flatMap_findings (entries : List Placed)
    (intact : ∀ p ∈ entries, p.Intact encoding) :
    (entries.flatMap (findings encoding)).filter Finding.isRecord =
      entries.filterMap (record? encoding) := by
  induction entries with
  | nil => rfl
  | cons p rest ih =>
    obtain ⟨here, others⟩ := List.forall_mem_cons.mp intact
    rw [List.flatMap_cons, List.filter_append, filter_findings p here, ih others]
    cases given : p.record? encoding with
    | none => rw [List.filterMap_cons_none given]; rfl
    | some f => rw [List.filterMap_cons_some given]; rfl

end Entry.Placed

end GlobalMap
