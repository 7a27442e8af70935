import GlobalMap.Dwarf.Abbreviation
import GlobalMap.Dwarf.Form
import GlobalMap.Dwarf.Sections
import GlobalMap.Dwarf.Unit
import GlobalMap.Text.Quoted
/-!
Single entries as they are encoded: a code, and the attributes that the abbreviation of the code
declares.

A value that is a place in a pool or a row of a table is looked up at once. The tables of a unit are
found through attributes of its first entry, so in that entry rows are looked up after everything
else has been read.
-/
namespace GlobalMap.Dwarf

/-- The value of an attribute. -/
inductive Value where
  | number (n : Int)
  | bytes (data : Bytes)
  /-- A string; none when the pool does not hold the end of one at the place referred to. -/
  | text (data : Option Bytes)
  deriving DecidableEq, Repr

/-- An attribute with its value. -/
structure Field where
  form : Form
  value : Value
  deriving DecidableEq, Repr

/-- The attributes of an entry by their codes. An attribute that is there twice keeps its first
place and its last value. -/
abbrev Fields := List (Nat × Field)

namespace Fields

def set (fields : Fields) (name : Nat) (field : Field) : Fields :=
  match fields with
  | [] => [(name, field)]
  | (other, old) :: rest =>
    if other = name then (name, field) :: rest else (other, old) :: set rest name field

def get? (fields : Fields) (name : Nat) : Option Field :=
  fields.lookup name

end Fields

/-! The attributes that matter here. -/

def siblingAttribute : Nat := 0x01
def locationAttribute : Nat := 0x02
def nameAttribute : Nat := 0x03
def memberLocationAttribute : Nat := 0x38
def declarationAttribute : Nat := 0x3c
def specificationAttribute : Nat := 0x47
def typeAttribute : Nat := 0x49
def stringOffsetsBase : Nat := 0x72
def addressBase : Nat := 0x73
def rangeListsBase : Nat := 0x74
def locationListsBase : Nat := 0x8c

/-- An entry as it is encoded. A null entry has no tag. -/
structure Record where
  offset : Nat
  tag : Option Nat
  hasChildren : Bool
  fields : Fields
  /-- The place behind the entry. -/
  next : Cursor

/-- A unit with its abbreviations. -/
structure LoadedUnit where
  header : UnitHeader
  abbreviations : Except Fault AbbreviationTable

namespace LoadedUnit

/-- The abbreviations of a unit. -/
def load (sections : Sections) (header : UnitHeader) : LoadedUnit where
  header
  abbreviations :=
    if sections.abbreviations.length ≤ header.abbreviationOffset then
      .error (.rejected "The abbreviations of a unit lie outside their section")
    else
      orTruncated (AbbreviationTable.read (sections.abbreviations.drop header.abbreviationOffset))

/-- A number with the cursor behind it. -/
def numbered (read : Option (Nat × Cursor)) : Except Fault (Value × Cursor) :=
  (orTruncated read).map fun (n, c) => (.number n, c)

/-- Bytes with the cursor behind them. -/
def blocked (read : Option (Bytes × Cursor)) : Except Fault (Value × Cursor) :=
  (orTruncated read).map fun (data, c) => (.bytes data, c)

/-- A value of a form, before anything is looked up. A form whose layout is not known, or is given
elsewhere, counts as undeclared here. -/
def readRaw (u : LoadedUnit) (form : Form) (c : Cursor) : Except Fault (Value × Cursor) :=
  match form.layout with
  | .address => numbered (c.word u.header.addressSize.bytes)
  | .offset => numbered (c.word u.header.format.offsetSize)
  | .word width => numbered (c.word width)
  | .uleb => numbered c.uleb
  | .sleb => (orTruncated c.sleb).map fun (n, c) => (.number n, c)
  | .block width => blocked do
    let (size, c) ← c.word width
    c.block size
  | .ulebBlock => blocked do
    let (size, c) ← c.uleb
    c.block size
  | .bytes count => blocked (c.block count)
  | .text => (orTruncated c.terminated).map fun (data, c) => (.text (some data), c)
  | .present => .ok (.number 0, c)
  | .reference =>
    numbered (c.word (if u.header.version = 2 then u.header.addressSize.bytes
      else u.header.format.offsetSize))
  | .constant | .indirect | .unknown => .error (.undeclared (Text.Quoted.text form.name))

/-- The form and value behind an indirection, through any number of further ones. -/
def readIndirect (u : LoadedUnit) (c : Cursor) : Except Fault ((Form × Value) × Cursor) :=
  match _h : c.uleb with
  | none => .error .truncated
  | some (code, next) =>
    match Form.ofCode? code with
    | none => .error (.rejected s!"Indirection to an unknown form {code}")
    | some form =>
      if form.layout = .indirect then readIndirect u next
      else (u.readRaw form next).map fun (value, c) => ((form, value), c)
termination_by c.rest.length
decreasing_by exact Cursor.uleb_length _h

/-- A string in a pool. -/
def pooled (name : String) (pool : Option Bytes) (offset : Nat) : Except Fault Value :=
  match pool with
  | none => .error (.missingSection name)
  | some data => .ok (.text ((terminated (data.drop offset)).map (·.1)))

/-- The start of one of the tables of a unit, among the attributes of its first entry. -/
def base (top : Fields) (name : Nat) : Except Fault Nat :=
  match top.get? name with
  | some ⟨_, .number n⟩ => if n < 0 then .error .truncated else .ok n.toNat
  | _ => .error (.rejected "A unit has no start for one of its tables")

/-- A word of a table in a section. -/
def tableWord (data : Bytes) (width start index : Nat) : Except Fault Nat :=
  (orTruncated (word .little width (data.drop (start + index * width)))).map (·.1)

/-- Where a list is that a row of a table of lists refers to, counted from the table. -/
def listOffset (u : LoadedUnit) (top : Fields) (name : String) (data : Option Bytes)
    (baseName index : Nat) : Except Fault Value :=
  match data with
  | none => .error (.missingSection name)
  | some data => do
    let start ← base top baseName
    let offset ← tableWord data u.header.format.offsetSize start index
    return .number (start + offset : Nat)

/-- Looks a row up in the tables of a unit; other values are left as they are. -/
def lookUpRow (u : LoadedUnit) (sections : Sections) (top : Fields) (meaning : Meaning)
    (value : Value) : Except Fault Value :=
  match meaning, value with
  | .stringIndex, .number index =>
    match sections.stringOffsets with
    | none => .error (.missingSection ".debug_str_offsets")
    | some data => do
      let start ← base top stringOffsetsBase
      let offset ← tableWord data u.header.format.offsetSize start index.toNat
      pooled ".debug_str" sections.strings offset
  | .addressIndex, .number index =>
    match sections.addresses with
    | none => .error (.rejected "The file has no section of addresses")
    | some data => do
      let start ← base top addressBase
      let address ← tableWord data u.header.addressSize.bytes start index.toNat
      return .number address
  | .locationListIndex, .number index =>
    u.listOffset top ".debug_loclists" sections.locationLists locationListsBase index.toNat
  | .rangeListIndex, .number index =>
    u.listOffset top ".debug_rnglists" sections.rangeLists rangeListsBase index.toNat
  | _, value => .ok value

/-- Looks up the place of a string in its pool; other values are left as they are. -/
def lookUpString (sections : Sections) (meaning : Meaning) (value : Value) : Except Fault Value :=
  match meaning, value with
  | .pooled, .number offset => pooled ".debug_str" sections.strings offset.toNat
  | .linePooled, .number offset => pooled ".debug_line_str" sections.lineStrings offset.toNat
  | _, value => .ok value

/-- Looks up a value as far as that can be done; without the first entry's attributes, rows are left
as they are. -/
def lookUp (u : LoadedUnit) (sections : Sections) (top : Option Fields) (form : Form)
    (value : Value) : Except Fault Value := do
  let value ← lookUpString sections form.meaning value
  match top with
  | none => return value
  | some top => u.lookUpRow sections top form.meaning value

/-- The form of a declared attribute, and its value before anything is looked up. -/
def readDeclared (u : LoadedUnit) (spec : AttributeSpec) (c : Cursor) :
    Except Fault ((Form × Value) × Cursor) :=
  match Form.ofCode? spec.form with
  | none => .error (.undeclaredNumber spec.form)
  | some form =>
    match form.layout, spec.constant with
    | .constant, some n => .ok ((form, .number n), c)
    | .indirect, _ => u.readIndirect c
    | _, _ => (u.readRaw form c).map fun (value, c) => ((form, value), c)

/-- The attributes of an entry, added to those read before. -/
def readFields (u : LoadedUnit) (sections : Sections) (top : Option Fields) (fields : Fields) :
    List AttributeSpec → Cursor → Except Fault (Fields × Cursor)
  | [], c => .ok (fields, c)
  | spec :: specs, c => do
    let ((form, raw), c) ← u.readDeclared spec c
    let value ← u.lookUp sections top form raw
    u.readFields sections top (fields.set spec.name ⟨form, value⟩) specs c

/-- The entry at a place. -/
def readRecord (u : LoadedUnit) (sections : Sections) (top : Option Fields) (c : Cursor) :
    Except Fault Record := do
  let (code, next) ← orTruncated c.uleb
  if code = 0 then return ⟨c.offset, none, false, [], next⟩
  let table ← u.abbreviations
  match table[code]? with
  | none => throw (.undeclaredNumber code)
  | some abbreviation =>
    let (fields, next) ← u.readFields sections top [] abbreviation.attributes next
    return ⟨c.offset, some abbreviation.tag, abbreviation.hasChildren, fields, next⟩

/-- The attributes of the first entry with their rows looked up, from the first attribute on. -/
def lookUpRows (u : LoadedUnit) (sections : Sections) (done : Fields) :
    Fields → Except Fault Fields
  | [] => .ok done
  | (name, field) :: rest => do
    let value ← u.lookUpRow sections (done ++ (name, field) :: rest) field.form.meaning field.value
    u.lookUpRows sections (done ++ [(name, { field with value })]) rest

/-- The first entry of a unit. -/
def readTop (u : LoadedUnit) (sections : Sections) : Except Fault Record := do
  let record ← u.readRecord sections none u.header.top
  let fields ← u.lookUpRows sections [] record.fields
  return { record with fields }

end LoadedUnit

end GlobalMap.Dwarf
