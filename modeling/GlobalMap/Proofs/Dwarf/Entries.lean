import GlobalMap.Dwarf.Tree
import GlobalMap.Proofs.Dwarf.Abbreviations

/-! Entries are read as they were written: first their attributes, then single entries, then whole
lists of them with all that stands below. A list takes no more steps than it has bytes. -/
namespace GlobalMap.Dwarf

variable {l : LoadedUnits} {u : LoadedUnit}

/-! ## Attributes -/

namespace Datum

/-- What a value is read as. -/
def field : Datum → Field
  | text s => ⟨.row "string" .text .text, .text (some (encoded s))⟩
  | byte n => ⟨.row "data1" (.word 1) .constant, .number n.toNat⟩
  | reference n => ⟨.row "ref4" (.word 4) .unitReference, .number n.toNat⟩
  | program data => ⟨.row "exprloc" .ulebBlock .expression, .bytes data⟩
  | present => ⟨.row "flag_present" .present .other, .number 0⟩

/-- The layout of a value stands with its form. -/
theorem readDeclared_form (datum : Datum) (u : LoadedUnit) (name : Nat) (c : Cursor) :
    u.readDeclared { name, form := datum.form } c =
      (u.readRaw datum.field.form c).map fun (value, c) => ((datum.field.form, value), c) := by
  cases datum <;> rfl

theorem readRaw_bytes {datum : Datum} (plain : datum.Plain) (u : LoadedUnit) (place : Nat)
    (rest : Bytes) :
    u.readRaw datum.field.form ⟨place, datum.bytes ++ rest⟩ =
      .ok (datum.field.value, ⟨place + datum.bytes.length, rest⟩) := by
  cases datum with
  | text s =>
    change (orTruncated (Cursor.terminated _)).map _ = _
    rw [bytes, Cursor.terminated_at plain]
    rfl
  | byte n =>
    change LoadedUnit.numbered (Cursor.word 1 _) = _
    rw [bytes, Cursor.word_at n.toNat_lt]
    rfl
  | reference n =>
    change LoadedUnit.numbered (Cursor.word 4 _) = _
    rw [bytes, Cursor.word_at n.toNat_lt]
    rfl
  | program data =>
    change LoadedUnit.blocked ((Cursor.uleb _).bind _) = _
    rw [bytes, Cursor.counted_at]
    rfl
  | present => rfl

/-- Nothing of a value is looked up elsewhere. -/
theorem lookUp_field (datum : Datum) (u : LoadedUnit) (sections : Sections)
    (top : Option Fields) :
    u.lookUp sections top datum.field.form datum.field.value = .ok datum.field.value := by
  cases datum <;> cases top <;> rfl

end Datum

namespace Attributes

/-- Fields with attributes added to them. -/
def addTo (fields : Fields) (attributes : Attributes) : Fields :=
  attributes.foldl (fun fields (name, datum) => fields.set name datum.field) fields

/-- The fields that attributes are read as. -/
def fields (attributes : Attributes) : Fields :=
  attributes.addTo []

theorem readFields_bytes {attributes : Attributes} (plain : attributes.Plain) (u : LoadedUnit)
    (sections : Sections) (top : Option Fields) (fields : Fields) (place : Nat) (rest : Bytes) :
    u.readFields sections top fields attributes.specs ⟨place, attributes.bytes ++ rest⟩ =
      .ok (attributes.addTo fields, ⟨place + attributes.bytes.length, rest⟩) := by
  induction attributes generalizing fields place with
  | nil => rfl
  | cons a attributes ih =>
    obtain ⟨name, datum⟩ := a
    obtain ⟨here, others⟩ := List.forall_mem_cons.mp plain
    have first := datum.readRaw_bytes here u place (bytes attributes ++ rest)
    have later := ih others (fields.set name datum.field) (place + datum.bytes.length)
    have shape : bytes ((name, datum) :: attributes) = datum.bytes ++ bytes attributes := rfl
    rw [shape, List.append_assoc]
    change (u.readDeclared _ _ >>= fun _ => _) = _
    rw [datum.readDeclared_form, first]
    change (u.lookUp sections top datum.field.form datum.field.value >>= fun _ => _) = _
    rw [datum.lookUp_field, List.length_append, ← Nat.add_assoc]
    exact later

end Attributes

/-! ## Single entries -/

/-- The record of an entry at a place. -/
def recordOf (kind : Kind) (attributes : Attributes) (place : Nat) (rest : Bytes) : Record where
  offset := place
  tag := some kind.abbreviation.tag
  hasChildren := kind.abbreviation.hasChildren
  fields := attributes.fields
  next := ⟨place + (entryBytes kind attributes).length, rest⟩

/-- The attributes are those that the kind declares, and can be written. -/
structure Kind.Takes (kind : Kind) (attributes : Attributes) : Prop where
  declared : kind.abbreviation.attributes = attributes.specs
  plain : attributes.Plain

theorem readRecord_entryBytes {kind : Kind} {attributes : Attributes}
    (table : u.abbreviations = .ok kindTable) (takes : kind.Takes attributes)
    (sections : Sections) (top : Option Fields) (place : Nat) (rest : Bytes) :
    u.readRecord sections top ⟨place, entryBytes kind attributes ++ rest⟩ =
      .ok (recordOf kind attributes place rest) := by
  have nonzero : kind.code ≠ 0 := kind.declarable_row.1
  have fields := Attributes.readFields_bytes takes.plain u sections top []
    (place + (ulebBytes kind.code).length) rest
  rw [LoadedUnit.readRecord, entryBytes, List.append_assoc, Cursor.uleb_at]
  change (if kind.code = 0 then _ else u.abbreviations >>= _) = _
  rw [if_neg nonzero, table]
  simp only [bind, Except.bind, getElem?_kindTable, takes.declared, fields]
  rw [Nat.add_assoc, ← List.length_append]
  rfl

/-! ## What an entry says -/

namespace Record

variable {r : Record}

theorem name_of_text {s : String}
    (held : r.fields.get? nameAttribute = some (Datum.text s).field) : r.name = .value s := by
  rw [name, held]
  simp only [Datum.field, utf8?_encoded]

/-- A reference is counted from the start of the section once it is read. -/
theorem typeRef_of_reference {n : UInt32} (u : LoadedUnit)
    (held : r.fields.get? typeAttribute = some (Datum.reference n).field) :
    r.typeRef u = .value (u.header.offset + n.toNat) := by
  rw [typeRef, held]
  change Attribute.value ((u.header.offset + Int.toNat n.toNat : Nat) : Int) = _
  rw [Int.toNat_natCast, Int.natCast_add]

end Record

theorem SourceMember.tagText_recordOf (m : SourceMember) (base place : Nat) (rest : Bytes) :
    (recordOf m.kind m.attributes place rest).tagText = .ok (m.entry base place).tag := by
  obtain ⟨name, type, offset⟩ := m
  cases offset <;> rfl

/-- The entry of a member is the one that its record is. -/
theorem SourceMember.entry_recordOf (m : SourceMember) (l : LoadedUnits) (u : LoadedUnit)
    (top : Except Fault Record) (place : Nat) (rest : Bytes) (next : Cursor) :
    (recordOf m.kind m.attributes place rest).entry l u top
        (m.entry u.header.offset place).tag { stop := .behind next } =
      m.entry u.header.offset place := by
  obtain ⟨name, type, offset⟩ := m
  cases offset with
  | constant offset =>
    rw [Record.entry, Record.name_of_text rfl, Record.typeRef_of_reference u rfl]
    rfl
  | plus offset =>
    rw [Record.entry, Record.name_of_text rfl, Record.typeRef_of_reference u rfl]
    rfl

theorem SourceItem.tagText_recordOf (item : SourceItem) (base place : Nat) (rest : Bytes) :
    (recordOf item.kind item.attributes place rest).tagText = .ok (item.entry base place).tag := by
  cases item <;> rfl

/-- The entry of an item is the one that its record is, with the entries below it. -/
theorem SourceItem.entry_recordOf (item : SourceItem) (l : LoadedUnits) (u : LoadedUnit)
    (top : Except Fault Record) (place : Nat) (rest : Bytes) (next : Cursor) :
    (recordOf item.kind item.attributes place rest).entry l u top
        (item.entry u.header.offset place).tag
        { entries := item.children u.header.offset
            (place + (entryBytes item.kind item.attributes).length)
          stop := .behind next } =
      item.entry u.header.offset place := by
  cases item with
  | baseType name encoding size =>
    rw [Record.entry, Record.name_of_text rfl]
    rfl
  | structureType name size members =>
    rw [Record.entry, Record.name_of_text rfl]
    rfl
  | typeDefinition name type =>
    rw [Record.entry, Record.name_of_text rfl, Record.typeRef_of_reference u rfl]
    rfl
  | global name type address =>
    rw [Record.entry, Record.name_of_text rfl, Record.typeRef_of_reference u rfl]
    rfl

/-! ## Lists of entries -/

section Lists

variable {top : Except Fault Record} {bases : Fields} {fuel : Nat}

/-- Wherever the bytes stand, they are read as an entry in front of what stands behind them; as many
steps as there are bytes are enough for that. -/
def ReadsAs (l : LoadedUnits) (u : LoadedUnit) (top : Except Fault Record) (bases : Fields)
    (bytes : Bytes) (entry : Nat → Entry) : Prop :=
  ∀ fuel place rest, bytes.length ≤ fuel →
    readSiblings l u top bases (fuel + 1) ⟨place, bytes ++ rest⟩ =
      let others := readSiblings l u top bases fuel ⟨place + bytes.length, rest⟩
      { others with entries := entry place :: others.entries }

/-- Wherever the bytes stand behind an entry of a kind, they are read as the entries below it. -/
def ReadsBelow (l : LoadedUnits) (u : LoadedUnit) (top : Except Fault Record) (bases : Fields)
    (kind : Kind) (bytes : Bytes) (entries : Nat → List Entry) : Prop :=
  ∀ fuel (r : Record) place rest, r.hasChildren = kind.abbreviation.hasChildren →
    r.next = ⟨place, bytes ++ rest⟩ → bytes.length ≤ fuel →
    r.below (readSiblings l u top bases fuel) =
      { entries := entries place, stop := .behind ⟨place + bytes.length, rest⟩ }

/-- An entry that does not say where the next one is stands in front of what is read behind the
entries below it. -/
theorem readSiblings_entry {c next : Cursor} {r : Record} {tag : String} {children : List Entry}
    (read : u.readRecord l.sections (some bases) c = .ok r) (tagged : r.tag.isNone = false)
    (told : r.tagText = .ok tag) (silent : r.fields.get? siblingAttribute = none)
    (below : r.below (readSiblings l u top bases fuel) =
      { entries := children, stop := .behind next }) :
    readSiblings l u top bases (fuel + 1) c =
      let others := readSiblings l u top bases fuel next
      { others with
        entries := r.entry l u top tag { entries := children, stop := .behind next } ::
          others.entries } := by
  have following (s : Siblings) : r.following l u s = s.stop := by
    rw [Record.following, silent]
    cases r.hasChildren <;> rfl
  rw [readSiblings, firstSibling, read]
  simp only [tagged, Bool.false_eq_true, if_false, below, following, told]

theorem readsBelow_leaf {kind : Kind} (leaf : kind.abbreviation.hasChildren = false) :
    ReadsBelow l u top bases kind [] fun _ => [] := by
  intro fuel r place rest childless next _
  rw [Record.below, childless, leaf, next]
  rfl

/-- A list of entries is read up to the null entry behind it. -/
theorem readSiblings_inOrder {α : Type} {bytes : α → Bytes} {entry : Nat → α → Entry}
    {things : List α} {place : Nat} {rest : Bytes} (positive : ∀ a, 0 < (bytes a).length)
    (each : ∀ a ∈ things, ReadsAs l u top bases (bytes a) fun place => entry place a)
    (enough : (things.flatMap bytes).length < fuel) :
    readSiblings l u top bases fuel ⟨place, things.flatMap bytes ++ 0 :: rest⟩ =
      { entries := inOrder bytes entry place things
        stop := .behind ⟨place + (things.flatMap bytes).length + 1, rest⟩ } := by
  obtain ⟨fuel, rfl⟩ := Nat.exists_eq_succ_of_ne_zero (Nat.ne_zero_of_lt enough)
  induction things generalizing fuel place with
  | nil => rfl
  | cons a things ih =>
    obtain ⟨here, others⟩ := List.forall_mem_cons.mp each
    have some := positive a
    rw [List.flatMap_cons, List.length_append] at enough
    -- The entry takes one step, and has at least one byte.
    obtain ⟨fuel, rfl⟩ := Nat.exists_eq_succ_of_ne_zero (by omega : fuel ≠ 0)
    have first := here (fuel + 1) place (things.flatMap bytes ++ 0 :: rest) (by omega)
    rw [ih others fuel (by omega)] at first
    rw [List.flatMap_cons, List.append_assoc, first, inOrder, List.length_append,
      Nat.add_assoc place]

theorem readsBelow_inOrder {α : Type} {bytes : α → Bytes} {entry : Nat → α → Entry}
    {things : List α} {kind : Kind} (parent : kind.abbreviation.hasChildren = true)
    (positive : ∀ a, 0 < (bytes a).length)
    (each : ∀ a ∈ things, ReadsAs l u top bases (bytes a) fun place => entry place a) :
    ReadsBelow l u top bases kind (things.flatMap bytes ++ [0])
      fun place => inOrder bytes entry place things := by
  intro fuel r place rest same next enough
  rw [List.length_append, List.length_singleton] at enough ⊢
  rw [Record.below, if_pos (same.trans parent), next, List.append_assoc, List.singleton_append,
    readSiblings_inOrder positive each enough, Nat.add_assoc]

/-- An entry is read with the entries below it, and ends where they do. -/
theorem readsAs_entryBytes {kind : Kind} {attributes : Attributes} {below : Bytes}
    {entry : Nat → Entry} {children : Nat → List Entry} (table : u.abbreviations = .ok kindTable)
    (takes : kind.Takes attributes) (silent : attributes.fields.get? siblingAttribute = none)
    (reads : ReadsBelow l u top bases kind below children)
    (told : ∀ place rest, (recordOf kind attributes place rest).tagText = .ok (entry place).tag)
    (same : ∀ place rest next, (recordOf kind attributes place rest).entry l u top (entry place).tag
      { entries := children (place + (entryBytes kind attributes).length)
        stop := .behind next } = entry place) :
    ReadsAs l u top bases (entryBytes kind attributes ++ below) entry := by
  intro fuel place rest enough
  rw [List.length_append] at enough
  have read := readRecord_entryBytes table takes l.sections (some bases) place (below ++ rest)
  have ended :=
    reads fuel (recordOf kind attributes place (below ++ rest)) _ rest rfl rfl (by omega)
  have step := readSiblings_entry read rfl (told place (below ++ rest)) silent ended
  rw [same, Nat.add_assoc, ← List.length_append] at step
  rw [List.append_assoc]
  exact step

end Lists

/-! ## Members and items -/

theorem length_entryBytes_pos (kind : Kind) (attributes : Attributes) :
    0 < (entryBytes kind attributes).length := by
  have code : 0 < (ulebBytes kind.code).length := by
    rw [ulebBytes]
    split <;> exact Nat.zero_lt_succ _
  rw [entryBytes, List.length_append]
  omega

theorem SourceItem.length_bytes_pos (item : SourceItem) : 0 < item.bytes.length := by
  have entry := length_entryBytes_pos item.kind item.attributes
  rw [bytes, List.length_append]
  omega

theorem SourceMember.takes {m : SourceMember} (plain : m.attributes.Plain) :
    m.kind.Takes m.attributes := by
  refine ⟨?_, plain⟩
  obtain ⟨name, type, offset⟩ := m
  cases offset <;> rfl

theorem SourceItem.takes {item : SourceItem} (plain : item.Plain) :
    item.kind.Takes item.attributes := by
  refine ⟨?_, plain.1⟩
  cases item <;> rfl

section Reading

variable {top : Except Fault Record} {bases : Fields}

theorem SourceMember.readsAs {m : SourceMember} (table : u.abbreviations = .ok kindTable)
    (plain : m.attributes.Plain) :
    ReadsAs l u top bases m.bytes fun place => m.entry u.header.offset place := by
  have leaf : m.kind.abbreviation.hasChildren = false := by
    obtain ⟨name, type, offset⟩ := m
    cases offset <;> rfl
  have reads : ReadsAs l u top bases (entryBytes m.kind m.attributes ++ [])
      fun place => m.entry u.header.offset place :=
    readsAs_entryBytes table (takes plain) rfl (readsBelow_leaf leaf)
      (m.tagText_recordOf u.header.offset) (m.entry_recordOf l u top)
  rwa [List.append_nil] at reads

/-- The entries below an item are read as they were written. -/
theorem SourceItem.readsBelow {item : SourceItem} (table : u.abbreviations = .ok kindTable)
    (plain : item.Plain) :
    ReadsBelow l u top bases item.kind item.below fun place =>
      item.children u.header.offset place := by
  cases item with
  | structureType name size members =>
    exact readsBelow_inOrder rfl (fun m => length_entryBytes_pos m.kind m.attributes)
      fun m mem => SourceMember.readsAs table (plain.2 m mem)
  | baseType name encoding size => exact readsBelow_leaf rfl
  | typeDefinition name type => exact readsBelow_leaf rfl
  | global name type address => exact readsBelow_leaf rfl

theorem SourceItem.readsAs {item : SourceItem} (table : u.abbreviations = .ok kindTable)
    (plain : item.Plain) :
    ReadsAs l u top bases item.bytes fun place => item.entry u.header.offset place := by
  have silent : item.attributes.fields.get? siblingAttribute = none := by
    cases item <;> rfl
  exact readsAs_entryBytes table (takes plain) silent (readsBelow table plain)
    (item.tagText_recordOf u.header.offset) (item.entry_recordOf l u top)

end Reading

end GlobalMap.Dwarf
