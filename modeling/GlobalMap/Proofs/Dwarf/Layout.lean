import GlobalMap.Dwarf.Record
import GlobalMap.Proofs.Coff.RoundTrip
import GlobalMap.Proofs.Dwarf.Words

/-! How units are laid out: the abbreviations of seven kinds of entries, and behind the header of a
unit the entries of what the unit declares, each list of entries up to a null entry. Beside the
bytes of a unit stands its tree. Written entries refer to each other from the start of their unit;
in the tree every offset counts from the start of the section. -/
namespace GlobalMap.Dwarf

/-! ## Attributes -/

/-- The value of an attribute in the form that it is written in. -/
inductive Datum where
  | text (s : String)
  | byte (n : UInt8)
  /-- The offset of an entry inside its unit. -/
  | reference (n : UInt32)
  | program (bytes : Bytes)
  | present

namespace Datum

/-- The code of the form. -/
def form : Datum → Nat
  | text _ => 0x08
  | byte _ => 0x0b
  | reference _ => 0x13
  | program _ => 0x18
  | present => 0x19

def bytes : Datum → Bytes
  | text s => textBytes s
  | byte n => Bytes.ofNatLittle 1 n.toNat
  | reference n => Bytes.ofNatLittle 4 n.toNat
  | program data => blockBytes data
  | present => []

/-- A text ends at its first zero byte, so it must not hold one itself. -/
def Plain : Datum → Prop
  | text s => '\x00' ∉ s.toList
  | _ => True

instance : DecidablePred Plain
  | text s => inferInstanceAs (Decidable ('\x00' ∉ s.toList))
  | byte _ | reference _ | program _ | present => inferInstanceAs (Decidable True)

end Datum

/-- Attributes with their values, in order. -/
abbrev Attributes := List (Nat × Datum)

namespace Attributes

/-- How attributes are declared. -/
def specs (attributes : Attributes) : List AttributeSpec :=
  attributes.map fun (name, datum) => { name, form := datum.form }

def bytes (attributes : Attributes) : Bytes :=
  attributes.flatMap fun (_, datum) => datum.bytes

end Attributes

/-! ## Kinds of entries -/

def sizeAttribute : Nat := 0x0b
def encodingAttribute : Nat := 0x3e
def externalAttribute : Nat := 0x3f

/-- The kinds of entries. -/
inductive Kind where
  | compileUnit
  | baseType
  | structureType
  /-- A member whose offset is written as a byte. -/
  | constantMember
  | global
  | typeDefinition
  /-- A member whose offset is written as a program. -/
  | programMember
  deriving DecidableEq

namespace Kind

/-- All kinds, in the order of their codes. -/
def all : List Kind :=
  [compileUnit, baseType, structureType, constantMember, global, typeDefinition, programMember]

def code : Kind → Nat
  | compileUnit => 1
  | baseType => 2
  | structureType => 3
  | constantMember => 4
  | global => 5
  | typeDefinition => 6
  | programMember => 7

/-- The name of every kind is a text. -/
def named (tag : Nat) (hasChildren : Bool) (others : List (Nat × Nat)) : Abbreviation where
  tag
  hasChildren
  attributes := { name := nameAttribute, form := 0x08 } ::
    others.map fun (name, form) => { name, form }

def abbreviation : Kind → Abbreviation
  | compileUnit => named 0x11 true []
  | baseType => named 0x24 false [(encodingAttribute, 0x0b), (sizeAttribute, 0x0b)]
  | structureType => named 0x13 true [(sizeAttribute, 0x0b)]
  | constantMember => named 0x0d false [(typeAttribute, 0x13), (memberLocationAttribute, 0x0b)]
  | global => named 0x34 false
      [(typeAttribute, 0x13), (externalAttribute, 0x19), (locationAttribute, 0x18)]
  | typeDefinition => named 0x16 false [(typeAttribute, 0x13)]
  | programMember => named 0x0d false [(typeAttribute, 0x13), (memberLocationAttribute, 0x18)]

/-- The row of a kind in the table of abbreviations. -/
def row (kind : Kind) : Nat × Abbreviation :=
  (kind.code, kind.abbreviation)

end Kind

/-- A declared attribute, without a value of its own. -/
def AttributeSpec.bytes (spec : AttributeSpec) : Bytes :=
  ulebBytes spec.name ++ ulebBytes spec.form

/-- What stands behind the code of a declaration. -/
def Abbreviation.bytes (a : Abbreviation) : Bytes :=
  ulebBytes a.tag ++ (Bytes.ofNatLittle 1 a.hasChildren.toNat ++
    (a.attributes.flatMap AttributeSpec.bytes ++ [0, 0]))

/-- A table of abbreviations. -/
def declarationBytes (rows : List (Nat × Abbreviation)) : Bytes :=
  rows.flatMap (fun row => ulebBytes row.1 ++ row.2.bytes) ++ [0]

/-- The abbreviations of all kinds. -/
def abbreviationBytes : Bytes :=
  declarationBytes (Kind.all.map Kind.row)

/-- An entry, without those below it. -/
def entryBytes (kind : Kind) (attributes : Attributes) : Bytes :=
  ulebBytes kind.code ++ attributes.bytes

/-! ## What a unit declares -/

/-- A program that adds to the address of the structure. -/
def plusProgram (offset : Nat) : Bytes :=
  0x23 :: ulebBytes offset

/-- A program that puts an address in place. -/
def addressProgram (address : UInt32) : Bytes :=
  0x03 :: Bytes.ofNatLittle 4 address.toNat

/-- The place that a program computes. -/
def programPlace (program : Bytes) : Place :=
  .program (program.map fun b => (b.toNat : Int))

/-- How the offset of a member is given. -/
inductive MemberOffset where
  | constant (offset : UInt8)
  | plus (offset : Nat)

/-- A member of a structure. -/
structure SourceMember where
  name : String
  /-- The offset of the type inside the unit. -/
  type : UInt32
  offset : MemberOffset

/-- What stands at the top of a unit. -/
inductive SourceItem where
  | baseType (name : String) (encoding size : UInt8)
  | structureType (name : String) (size : UInt8) (members : List SourceMember)
  | typeDefinition (name : String) (type : UInt32)
  | global (name : String) (type address : UInt32)

/-- A unit. -/
structure SourceUnit where
  name : String
  items : List SourceItem

/-! ## Bytes -/

namespace SourceMember

def kind (m : SourceMember) : Kind :=
  match m.offset with
  | .constant _ => .constantMember
  | .plus _ => .programMember

def attributes (m : SourceMember) : Attributes :=
  [(nameAttribute, .text m.name), (typeAttribute, .reference m.type),
    (memberLocationAttribute,
      match m.offset with
      | .constant offset => .byte offset
      | .plus offset => .program (plusProgram offset))]

def bytes (m : SourceMember) : Bytes :=
  entryBytes m.kind m.attributes

end SourceMember

namespace SourceItem

def kind : SourceItem → Kind
  | baseType .. => .baseType
  | structureType .. => .structureType
  | typeDefinition .. => .typeDefinition
  | global .. => .global

def attributes : SourceItem → Attributes
  | baseType name encoding size =>
    [(nameAttribute, .text name), (encodingAttribute, .byte encoding), (sizeAttribute, .byte size)]
  | structureType name size _ => [(nameAttribute, .text name), (sizeAttribute, .byte size)]
  | typeDefinition name type => [(nameAttribute, .text name), (typeAttribute, .reference type)]
  | global name type address =>
    [(nameAttribute, .text name), (typeAttribute, .reference type), (externalAttribute, .present),
      (locationAttribute, .program (addressProgram address))]

/-- The entries below an item, up to the null entry behind them. -/
def below : SourceItem → Bytes
  | structureType _ _ members => members.flatMap SourceMember.bytes ++ [0]
  | _ => []

def bytes (item : SourceItem) : Bytes :=
  entryBytes item.kind item.attributes ++ item.below

end SourceItem

namespace SourceUnit

/-- The number of bytes of a unit's header. -/
def headerSize : Nat := 11

def attributes (u : SourceUnit) : Attributes :=
  [(nameAttribute, .text u.name)]

/-- The first entry of a unit. -/
def top (u : SourceUnit) : Bytes :=
  entryBytes .compileUnit u.attributes

/-- The entries below the first one, up to the null entry behind them. -/
def below (u : SourceUnit) : Bytes :=
  u.items.flatMap SourceItem.bytes ++ [0]

/-- A unit behind its length: version 4, the first table of abbreviations, addresses of four
bytes, and the entries. -/
def behindLength (u : SourceUnit) : Bytes :=
  Bytes.pack [(2, 4), (4, 0), (1, 4)] ++ (u.top ++ u.below)

def bytes (u : SourceUnit) : Bytes :=
  Bytes.ofNatLittle 4 u.behindLength.length ++ u.behindLength

end SourceUnit

/-! ## Trees -/

/-- What things that stand one behind the other from a place on come to, each at its own place. -/
def inOrder {α β : Type} (bytes : α → Bytes) (make : Nat → α → β) : Nat → List α → List β
  | _, [] => []
  | place, a :: rest => make place a :: inOrder bytes make (place + (bytes a).length) rest

section InOrder

variable {α β : Type} {bytes : α → Bytes} {things : List α}

theorem length_inOrder (make : Nat → α → β) (place : Nat) (things : List α) :
    (inOrder bytes make place things).length = things.length := by
  induction things generalizing place with
  | nil => rfl
  | cons a things ih => rw [inOrder, List.length_cons, List.length_cons, ih]

theorem map_inOrder {γ : Type} (f : β → γ) (make : Nat → α → β) (place : Nat) (things : List α) :
    (inOrder bytes make place things).map f =
      inOrder bytes (fun place a => f (make place a)) place things := by
  induction things generalizing place with
  | nil => rfl
  | cons a things ih => rw [inOrder, List.map_cons, ih, inOrder]

theorem mem_inOrder {make : Nat → α → β} {place : Nat} {b : β}
    (mem : b ∈ inOrder bytes make place things) : ∃ a ∈ things, ∃ place, b = make place a := by
  induction things generalizing place with
  | nil => cases mem
  | cons a things ih =>
    rcases List.mem_cons.mp mem with rfl | mem
    · exact ⟨a, List.mem_cons_self, place, rfl⟩
    · obtain ⟨a, isThing, found⟩ := ih mem
      exact ⟨a, List.mem_cons_of_mem _ isThing, found⟩

end InOrder

/-- The entry of a member, in the unit at `base`. -/
def SourceMember.entry (base place : Nat) (m : SourceMember) : Entry where
  tag := "DW_TAG_member"
  offset := place
  name := .value m.name
  typeRef := .value (base + m.type.toNat)
  memberLocation := .value <|
    match m.offset with
    | .constant offset => .constant offset.toNat
    | .plus offset => programPlace (plusProgram offset)

/-- The entries below an item, from a place on, in the unit at `base`. -/
def SourceItem.children (base place : Nat) : SourceItem → List Entry
  | .structureType _ _ members =>
    inOrder SourceMember.bytes (SourceMember.entry base) place members
  | _ => []

/-- The entry of an item, in the unit at `base`. -/
def SourceItem.entry (base place : Nat) : SourceItem → Entry
  | .baseType name _ _ => { tag := "DW_TAG_base_type", offset := place, name := .value name }
  | .structureType name size members =>
    { tag := "DW_TAG_structure_type"
      offset := place
      name := .value name
      children := (structureType name size members).children base <|
        place + (entryBytes .structureType (structureType name size members).attributes).length }
  | .typeDefinition name type =>
    { tag := "DW_TAG_typedef"
      offset := place
      name := .value name
      typeRef := .value (base + type.toNat) }
  | .global name type address =>
    { tag := "DW_TAG_variable"
      offset := place
      name := .value name
      typeRef := .value (base + type.toNat)
      location := .value (programPlace (addressProgram address)) }

namespace SourceUnit

/-- Where the entries below the first one begin, in the unit at `base`. -/
def itemsPlace (base : Nat) (u : SourceUnit) : Nat :=
  base + headerSize + u.top.length

/-- The tree of the unit at `base`. -/
def tree (base : Nat) (u : SourceUnit) : Entry where
  tag := "DW_TAG_compile_unit"
  offset := base + headerSize
  name := .value u.name
  children := inOrder SourceItem.bytes (SourceItem.entry base) (u.itemsPlace base) u.items

/-- The trees of units that stand one behind the other. -/
def inMemory (units : List SourceUnit) : DebugInfo where
  units := (inOrder bytes tree 0 units).map fun tree => { top := .ok tree }

end SourceUnit

/-! ## What can be written -/

/-- No text in an entry holds a zero character. -/
def Attributes.Plain (attributes : Attributes) : Prop :=
  ∀ a ∈ attributes, a.2.Plain

instance : DecidablePred Attributes.Plain :=
  fun attributes => inferInstanceAs (Decidable (∀ a ∈ attributes, a.2.Plain))

/-- An item and all below it can be written. -/
def SourceItem.Plain (item : SourceItem) : Prop :=
  item.attributes.Plain ∧
    match item with
    | .structureType _ _ members => ∀ m ∈ members, m.attributes.Plain
    | _ => True

instance : DecidablePred SourceItem.Plain
  | .structureType _ _ members =>
    inferInstanceAs (Decidable (_ ∧ ∀ m ∈ members, m.attributes.Plain))
  | .baseType .. | .typeDefinition .. | .global .. => inferInstanceAs (Decidable (_ ∧ True))

/-- A unit can be written: no name holds a zero character, and its length is one. The highest words
are no lengths. -/
structure SourceUnit.Fits (u : SourceUnit) : Prop where
  named : u.attributes.Plain
  items : ∀ item ∈ u.items, item.Plain
  length : u.behindLength.length < 0xffffff00

/-- The payload of the first section of a name that has one. -/
def payloadOf (c : Coff.Contents) (name : String) : Bytes :=
  ((c.nonEmpty.find? fun s => s.1 == name).map Prod.snd).getD []

/-- An object file holds units with their abbreviations, whatever else it holds. -/
structure Holds (c : Coff.Contents) (units : List SourceUnit) : Prop where
  entries : payloadOf c Sections.entriesName = units.flatMap SourceUnit.bytes
  abbreviations : payloadOf c Sections.abbreviationsName = abbreviationBytes

end GlobalMap.Dwarf
