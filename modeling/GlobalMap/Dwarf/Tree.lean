import GlobalMap.Dwarf.Record
import GlobalMap.Dwarf.Tag
/-!
The entry trees of encoded debug information.

The children of an entry stand behind it, up to a null entry. To step from a child to the next one,
either the child says where that is, or all entries below the child are read to find where they end;
so damage below a child may end the list that the child is in. It is reported by each entry whose
list of children it ends.

A child may say that the next one is where some entry before it is. From there the entries lead
around in circles, side by side or each below the one before, and have no end.
-/
namespace GlobalMap.Dwarf

/-- The units of a file, each with its first entry. -/
structure LoadedUnits where
  sections : Sections
  units : List (LoadedUnit × Except Fault Record)
  /-- Why there are no more units. -/
  failure : Option Fault

namespace LoadedUnits

/-- Reads the units of a file. -/
def load (sections : Sections) : LoadedUnits :=
  let (headers, failure) := UnitHeader.readAll sections.entries
  let units := headers.map fun header =>
    let u := LoadedUnit.load sections header
    (u, u.readTop sections)
  { sections, units, failure }

/-- The unit that holds an offset. -/
def unitAt (l : LoadedUnits) (offset : Nat) : Except Fault (LoadedUnit × Except Fault Record) :=
  match l.units.find? fun row => offset < row.1.header.stop with
  | some row => .ok row
  | none => .error (l.failure.getD (.rejected "An offset lies behind the entries"))

/-- The entry at an offset inside a unit. -/
def entryIn (l : LoadedUnits) (u : LoadedUnit) (top : Except Fault Record) (offset : Nat) :
    Except Fault Record := do
  if offset < u.header.top.offset ∨ u.header.stop ≤ offset then
    throw (.rejected "An offset lies outside the entries of its unit")
  let first ← top
  if offset = first.offset then return first
  u.readRecord l.sections (some first.fields) (.ofOffset l.sections.entries offset)

end LoadedUnits

namespace Record

/-- What a message about an entry starts with. -/
def entryText (r : Record) : String :=
  s!"entry {Text.hex r.offset}"

/-- The name of an entry. -/
def name (r : Record) : Attribute String :=
  match r.fields.get? nameAttribute with
  | none => .absent
  | some ⟨_, .text (some data)⟩ =>
    match Bytes.utf8? data with
    | some text => .value text
    | none => .unreadable s!"Name of {r.entryText} is not valid UTF-8"
  | some ⟨form, _⟩ => .unreadable s!"Name of {r.entryText} has form {form.name}"

/-- The offset that an attribute refers to; `none` when its form is not one of a reference. -/
def reference? (u : LoadedUnit) (field : Field) : Option Nat :=
  match field.form.meaning, field.value with
  | .unitReference, .number n => some (u.header.offset + n.toNat)
  | .sectionReference, .number n => some n.toNat
  | _, _ => none

/-- Why an attribute is not a reference. -/
def noReference (r : Record) (label : String) (form : Form) : String :=
  s!"{label} of {r.entryText} has non-reference form {form.name}"

/-- The offset of the type of an entry. -/
def typeRef (u : LoadedUnit) (r : Record) : Attribute Int :=
  match r.fields.get? typeAttribute with
  | none => .absent
  | some field =>
    match reference? u field with
    | some offset => .value offset
    | none => .unreadable (r.noReference "DW_AT_type" field.form)

/-- A location attribute of an entry. -/
def place (r : Record) (code : Nat) (label : String) : Attribute Place :=
  match r.fields.get? code with
  | none => .absent
  | some ⟨form, value⟩ =>
    match form.meaning, value with
    | .expression, .bytes data => .value (.program (data.map fun b => (b.toNat : Int)))
    | .constant, .number n => .value (.constant n)
    | _, _ => .unreadable s!"{label} of {r.entryText} has form {form.name}"

/-- What an entry declares for the one that completes it. -/
def declaration (u : LoadedUnit) (r : Record) : Declaration where
  offset := r.offset
  name := r.name
  typeRef := r.typeRef u

/-- The unit and the entry that a reference leads to. -/
def follow (l : LoadedUnits) (u : LoadedUnit) (top : Except Fault Record) (meaning : Meaning)
    (offset : Nat) : Except Fault Declaration := do
  if meaning = .sectionReference then
    if l.sections.entries.length ≤ offset then
      throw (.rejected "An offset lies behind the entries")
    let (u, top) ← l.unitAt offset
    return (← l.entryIn u top offset).declaration u
  else
    return (← l.entryIn u top offset).declaration u

/-- The declaration that an entry completes. -/
def specification (l : LoadedUnits) (u : LoadedUnit) (top : Except Fault Record) (r : Record) :
    Attribute (Except Damage Declaration) :=
  match r.fields.get? specificationAttribute with
  | none => .absent
  | some field =>
    match reference? u field with
    | none => .unreadable (r.noReference "DW_AT_specification" field.form)
    | some offset =>
      match follow l u top field.form.meaning offset with
      | .ok declaration => .value (.ok declaration)
      | .error (.rejected what) =>
        .unreadable s!"DW_AT_specification of {r.entryText} cannot be followed: {what}"
      | .error fault => .value (.error (fault.damage r.offset))

/-- The name of an entry's tag; a null entry has none. -/
def tagText (r : Record) : Except Number.Overlong String :=
  match r.tag with
  | some tag => tagName tag
  | none => .ok "None"

end Record

/-- What comes behind entries that stand side by side. -/
inductive Stop where
  /-- The place behind the null entry that ends them. -/
  | behind (next : Cursor)
  | fault (fault : Fault)
  /-- Nothing: one entry leads to the next for ever. -/
  | nowhere

/-- Entries that stand side by side. -/
structure Siblings where
  /-- The entries, up to the first whose tag has no text. -/
  entries : List Entry := []
  /-- Why the tag of the last of these has no text, if it has none. -/
  untold : Option Number.Overlong := none
  stop : Stop

/-- Why the entries are not all that stand there. -/
def Siblings.failure (s : Siblings) (near : Nat) : Option Hindrance :=
  match s.untold, s.stop with
  | some tag, _ => some (.damaged (.overlong tag))
  | none, .behind _ => none
  | none, .fault fault => some (.damaged (fault.damage near))
  | none, .nowhere => some .endless

namespace Record

/-- The entry that a record with this tag and its children are. -/
def entry (l : LoadedUnits) (u : LoadedUnit) (top : Except Fault Record) (r : Record)
    (tag : String) (below : Siblings) : Entry where
  tag
  offset := r.offset
  name := r.name
  typeRef := r.typeRef u
  location := r.place locationAttribute "DW_AT_location"
  memberLocation := r.place memberLocationAttribute "DW_AT_data_member_location"
  declared := (r.fields.get? declarationAttribute).isSome
  specification := r.specification l u top
  children := below.entries
  failure := below.failure r.offset

/-- An entry of whose tag there is no text, as far as it matters. -/
def untoldEntry (r : Record) (tag : Number.Overlong) : Entry where
  tag := ""
  offset := r.offset
  failure := some (.damaged (.overlong tag))

/-- What comes behind an entry and its children: the place that the entry says, if it has children
and says so, otherwise what comes behind the last of them. -/
def following (l : LoadedUnits) (u : LoadedUnit) (r : Record) (below : Siblings) : Stop :=
  match r.hasChildren, r.fields.get? siblingAttribute with
  | true, some ⟨form, .number n⟩ =>
    match form.meaning with
    | .unitReference | .siblingReference =>
      .behind (.ofOffset l.sections.entries (u.header.offset + n.toNat))
    | .sectionReference => .behind (.ofOffset l.sections.entries n.toNat)
    | _ => .fault (.siblingForm form.name)
  | true, some ⟨form, _⟩ => .fault (.siblingForm form.name)
  | _, _ => below.stop

/-- The children of a record, where they are read by `read`. -/
def below (r : Record) (read : Cursor → Siblings) : Siblings :=
  if r.hasChildren then read r.next else { stop := .behind r.next }

end Record

/-- Reads the first of entries that stand side by side. Its children and the entries behind it are
read by `read`. -/
def firstSibling (l : LoadedUnits) (u : LoadedUnit) (top : Except Fault Record) (bases : Fields)
    (read : Cursor → Siblings) (c : Cursor) : Siblings :=
  match u.readRecord l.sections (some bases) c with
  | .error fault => { stop := .fault fault }
  | .ok r =>
    if r.tag.isNone then { stop := .behind r.next }
    else
      let below := r.below read
      let others : Siblings :=
        match r.following l u below with
        | .behind next => read next
        | stop => { stop }
      match r.tagText with
      | .error tag => ⟨[r.untoldEntry tag], some tag, others.stop⟩
      | .ok tag => { others with entries := r.entry l u top tag below :: others.entries }

/-- Reads entries that stand side by side, with all below them, in at most so many steps from one
place to another. -/
def readSiblings (l : LoadedUnits) (u : LoadedUnit) (top : Except Fault Record) (bases : Fields) :
    (steps : Nat) → Cursor → Siblings
  | 0 => fun _ => { stop := .nowhere }
  | steps + 1 => firstSibling l u top bases (readSiblings l u top bases steps)

namespace LoadedUnits

/-- The tree of a unit, as far as some steps lead. -/
def tree (l : LoadedUnits) (u : LoadedUnit) (top : Except Fault Record) (steps : Nat) :
    Except Fault Entry := do
  let first ← top
  match first.tagText with
  | .error tag => return first.untoldEntry tag
  | .ok tag =>
    return first.entry l u top tag (first.below (readSiblings l u top first.fields steps))

/-- A unit of debug information, as far as some steps lead. Damage in its first entry is damage at
the unit's own offset. -/
def debugUnit (l : LoadedUnits) (u : LoadedUnit) (top : Except Fault Record) (steps : Nat) :
    DebugUnit where
  offset := u.header.offset
  length := u.header.size
  version := u.header.version
  encoding := u.header.encoding
  top := (l.tree u top steps).mapError (Fault.damage u.header.offset)

/-- The debug information of loaded units, as far as some steps lead. -/
def debugInfo (l : LoadedUnits) (steps : Nat) : DebugInfo where
  units := l.units.map fun (u, top) => l.debugUnit u top steps
  failure := l.failure.map (Fault.damage 0)

end LoadedUnits

/-- As many steps as can be made without coming back to a place for the same end. There are the
places of a section and the one behind it, and each may be come to for what is behind a list, for
its entries alone, or for the walk over them at the top of a unit or further down. -/
def Sections.reach (sections : Sections) : Nat :=
  4 * (sections.entries.length + 1)

end Dwarf

namespace DebugInfo

/-- The debug information in sections, as far as some steps lead. -/
def readWithin (sections : Dwarf.Sections) (steps : Nat) : DebugInfo :=
  (Dwarf.LoadedUnits.load sections).debugInfo steps

/-- The debug information in sections. -/
def read (sections : Dwarf.Sections) : DebugInfo :=
  readWithin sections sections.reach

end DebugInfo

end GlobalMap
