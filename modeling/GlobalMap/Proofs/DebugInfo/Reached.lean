import GlobalMap.DebugInfo.Survey

/-! What the entries of a tree stand for, said without walking it. Whether an entry
counts depends on the entries above it, what it gives on the entry alone; neither
the order of a walk nor its early exits come into it. -/
namespace GlobalMap

variable {encoding : Dwarf.Encoding} {e : Entry} {above : List Entry}

namespace Attribute

/-- The value of an attribute that is there and can be read. -/
def value? {α : Type} : Attribute α → Option α
  | value a => some a
  | absent | unreadable _ => none

/-- An attribute that may be taken from elsewhere where it is absent. One that
cannot be read is not made up for. -/
def completedBy {α : Type} (own declared : Attribute α) : Option α :=
  match own with
  | value a => some a
  | absent => declared.value?
  | unreadable _ => none

end Attribute

namespace Entry

/-- The tags whose entries stand for something themselves, so that nothing is
looked for below them. -/
def handledTags : List String :=
  ["DW_TAG_typedef", "DW_TAG_variable", "DW_TAG_base_type", "DW_TAG_structure_type",
    "DW_TAG_union_type", "DW_TAG_const_type", "DW_TAG_volatile_type"]

def handled (e : Entry) : Prop :=
  e.tag ∈ handledTags

instance (e : Entry) : Decidable e.handled :=
  inferInstanceAs (Decidable (e.tag ∈ handledTags))

/-- The encoding of an entry is not damaged, whatever its attributes are. -/
def Undamaged (e : Entry) : Prop :=
  e.failure = none ∧ (match e.specification with
    | .value (.error _) => false
    | _ => true) = true

instance (e : Entry) : Decidable e.Undamaged :=
  inferInstanceAs (Decidable (_ ∧ _))

/-- The declaration that an entry completes, if it names one that can be read. -/
def declaration? (e : Entry) : Option Declaration :=
  match e.specification with
  | .value (.ok declaration) => some declaration
  | _ => none

/-- The name of an entry, its own or that of its declaration. -/
def completedName (e : Entry) : Option String :=
  e.name.completedBy ((e.declaration?.map Declaration.name).getD .absent)

/-- The type of an entry, its own or that of its declaration. -/
def completedType (e : Entry) : Option Int :=
  e.typeRef.completedBy ((e.declaration?.map Declaration.typeRef).getD .absent)

/-- The offset that a place inside a structure says. -/
def innerOffset? (encoding : Dwarf.Encoding) : Place → Option Int
  | .constant n => some n
  | .program bytes =>
    match Location.locate encoding bytes (some 0) with
    | .ok ⟨.address, value⟩ => some value
    | _ => none

/-- The address in the object file that a place says. -/
def fileAddress? (encoding : Dwarf.Encoding) : Place → Option Int
  | .constant _ => none
  | .program bytes =>
    match Location.locate encoding bytes none with
    | .ok ⟨.relocatedAddress, value⟩ => some value
    | _ => none

/-- The member that an entry stands for. -/
def memberOf? (encoding : Dwarf.Encoding) (e : Entry) : Option Member :=
  if e.tag = "DW_TAG_member" then do
    let name ← e.name.value?
    let typeRef ← e.typeRef.value?
    let offset ← e.memberLocation.value?.bind (innerOffset? encoding)
    return { name, typeRef, offset }
  else none

/-- The variable that an entry stands for. -/
def globalOf? (encoding : Dwarf.Encoding) (e : Entry) : Option Variable := do
  let name ← e.completedName
  let typeRef ← e.completedType
  let address ← e.location.value?.bind (fileAddress? encoding)
  return { name, address, typeRef }

/-- An entry and the entries above it, the nearest one first. -/
structure Placed where
  entry : Entry
  above : List Entry := []

mutual

/-- All entries of a tree, each one before those below it. -/
def placed (above : List Entry) : Entry → List Placed
  | ⟨tag, offset, name, typeRef, location, memberLocation, declared, specification, children,
      failure⟩ =>
    let e : Entry := ⟨tag, offset, name, typeRef, location, memberLocation, declared,
      specification, children, failure⟩
    ⟨e, above⟩ :: placedAmong (e :: above) children

def placedAmong (above : List Entry) : List Entry → List Placed
  | [] => []
  | child :: rest => placed above child ++ placedAmong above rest

end

namespace Placed

/-- No entry above is handled. -/
def Reached (p : Placed) : Prop :=
  ∀ a ∈ p.above, ¬ a.handled

instance : DecidablePred Reached :=
  fun p => inferInstanceAs (Decidable (∀ a ∈ p.above, ¬ a.handled))

/-- The number of entries above. -/
def level (p : Placed) : Nat :=
  p.above.length

/-- What an entry gives, by its tag. Only variables look at their place, for those
that are local are left alone. -/
def record? (encoding : Dwarf.Encoding) (p : Placed) : Option Finding :=
  match p.entry.tag with
  | "DW_TAG_base_type" => p.entry.name.value?.map (.baseType p.entry.offset)
  | "DW_TAG_typedef" => do
    let name ← p.entry.name.value?
    let target ← p.entry.typeRef.value?
    return .typeDefinition p.entry.offset ⟨name, target⟩
  | "DW_TAG_const_type" | "DW_TAG_volatile_type" =>
    p.entry.typeRef.value?.map (.qualifier p.entry.offset)
  | "DW_TAG_structure_type" | "DW_TAG_union_type" =>
    some (.aggregate {
      name := p.entry.name.value?
      identity := p.entry.offset
      members := p.entry.children.filterMap (memberOf? encoding) })
  | "DW_TAG_variable" =>
    if p.level ≤ 1 then (p.entry.globalOf? encoding).map .global else none
  | _ => none

end Placed

/-- What the reached ones of some entries give, in order. -/
def recordsAmong (encoding : Dwarf.Encoding) (entries : List Placed) : List Finding :=
  (entries.filter Placed.Reached).filterMap (Placed.record? encoding)

/-- A tree is seen through its root and the trees below it. -/
theorem placed_eq (above : List Entry) (e : Entry) :
    e.placed above = ⟨e, above⟩ :: placedAmong (e :: above) e.children := by
  cases e
  rfl

theorem placedAmong_eq_flatMap (above : List Entry) (entries : List Entry) :
    placedAmong above entries = entries.flatMap (placed above) := by
  induction entries with
  | nil => rfl
  | cons child rest ih => rw [placedAmong, ih, List.flatMap_cons]

/-- What holds of an entry if it holds of those below it holds of every entry. -/
theorem children_induction {motive : Entry → Prop}
    (step : ∀ e : Entry, (∀ child ∈ e.children, motive child) → motive e) (e : Entry) :
    motive e := by
  apply step
  intro child mem
  exact children_induction step child
termination_by sizeOf e
decreasing_by
  have smaller := List.sizeOf_lt_of_mem mem
  cases e
  simp only [mk.sizeOf_spec]
  simp only at smaller
  omega

/-- Nothing is lost of the entries above a tree on the way down. -/
theorem mem_above_of_mem_placed {a : Entry} {p : Placed} (mem : p ∈ e.placed above)
    (held : a ∈ above) : a ∈ p.above := by
  induction e using children_induction generalizing above with
  | step e ih =>
    rw [placed_eq, placedAmong_eq_flatMap] at mem
    rcases List.mem_cons.mp mem with rfl | below
    · exact held
    · obtain ⟨child, isChild, mem⟩ := List.mem_flatMap.mp below
      exact ih child isChild mem (List.mem_cons_of_mem _ held)

/-- What the reached entries of a tree give, in order. -/
def records (encoding : Dwarf.Encoding) (e : Entry) : List Finding :=
  recordsAmong encoding (e.placed [])

end Entry

end GlobalMap
