import GlobalMap.Coff.Header
/-!
A whole COFF object file: its header, its tables and the contents of its sections.

The tables are cut out first and then every section's contents are checked, so an image is read
completely or not at all. What is odd but harmless (a name that cannot be resolved, a string table
with the wrong length word) is a warning; `Tables.warnings` lists them in the order of the file.
-/
namespace GlobalMap.Coff

/-- Something odd in an image that does not keep it from being read. -/
inductive Warning where
  /-- The length word of the string table differs from the table's size. -/
  | stringTableLength (declared size : Nat)
  /-- A section header has no name. -/
  | unnamedHeader (fault : NameFault)
  deriving DecidableEq, Repr

namespace Warning

def message : Warning → String
  | stringTableLength declared size =>
    s!"String table declares {declared} bytes but {size} bytes follow the symbol table"
  | unnamedHeader fault => s!"Unnamed section header: {fault.message}"

end Warning

/-- The length word that a string table starts with, if the table is long enough to hold one. -/
def declaredLength (table : Bytes) : Option Nat :=
  if table.length < 4 then none else some (Bytes.littleEndian (table.take 4))

/-- The warning that a string table with a wrong length word gives rise to. -/
def lengthWarning (table : Bytes) : Option Warning :=
  match declaredLength table with
  | some declared =>
    if declared ≠ table.length then some (.stringTableLength declared table.length) else none
  | none => none

/-- The warning that a name gives rise to. -/
def nameWarning : Except NameFault String → Option Warning
  | .ok _ => none
  | .error fault => some (.unnamedHeader fault)

/-- The tables of an image, before the contents of its sections are looked at. -/
structure Tables where
  header : FileHeader
  symbolTable : Bytes
  stringTable : Bytes
  sectionHeaders : List SectionHeader

namespace Tables

/-- The symbol table and the string table behind it, which runs to the end of the file. An image
with a zero symbol table offset is stripped and has neither. -/
def readSymbols (data : Bytes) (header : FileHeader) : Except Malformed (Bytes × Bytes) :=
  if header.symbolTableOffset = 0 then
    .ok ([], [])
  else do
    let symbols ← cutTable data header.symbolTableOffset header.symbolTableSize "Symbol table"
    let start := header.symbolTableOffset + header.symbolTableSize
    let strings ← cutTable data start (data.length - start) "String table"
    return (symbols, strings)

/-- The first records of a section header table. -/
def readHeaders (strings : Bytes) : (count : Nat) → Bytes → Except Malformed (List SectionHeader)
  | 0, _ => .ok []
  | count + 1, records => do
    let header ← SectionHeader.read (records.take SectionHeader.recordSize) strings
    let others ← readHeaders strings count (records.drop SectionHeader.recordSize)
    return header :: others

def read (data : Bytes) : Except Malformed Tables := do
  let header ← FileHeader.read data
  let records ← cutTable data header.sectionTableOffset
    (header.sectionCount * SectionHeader.recordSize) "Section header table"
  let (symbols, strings) ← readSymbols data header
  let headers ← readHeaders strings header.sectionCount records
  return ⟨header, symbols, strings, headers⟩

def warnings (t : Tables) : List Warning :=
  (lengthWarning t.stringTable).toList ++
    t.sectionHeaders.filterMap fun header => nameWarning header.name

/-- The first section whose contents end behind the file. -/
def overrun? (t : Tables) (size : Nat) : Option SectionHeader :=
  t.sectionHeaders.find? fun header => header.hasData && size < header.endOffset

end Tables

/-- A section with contents. -/
structure Section where
  name : Option String
  start : Nat
  data : Bytes
  deriving DecidableEq, Repr

/-- An object file that has been read. -/
structure Image where
  header : FileHeader
  sectionHeaders : List SectionHeader
  sections : List Section
  symbolTable : Bytes
  stringTable : Bytes

namespace Image

/-- The contents that a section header describes. -/
def sectionOf (data : Bytes) (header : SectionHeader) : Section :=
  ⟨header.name.toOption, header.dataOffset, (data.drop header.dataOffset).take header.size⟩

/-- The image that tables describe, once the contents of every section are inside the file. -/
def ofTables (data : Bytes) (t : Tables) : Except Malformed Image :=
  match t.overrun? data.length with
  | some header =>
    .error (.payload header.name.toOption header.dataOffset header.endOffset data.length)
  | none =>
    .ok {
      header := t.header
      sectionHeaders := t.sectionHeaders
      sections := (t.sectionHeaders.filter SectionHeader.hasData).map (sectionOf data)
      symbolTable := t.symbolTable
      stringTable := t.stringTable }

def read (data : Bytes) : Except Malformed Image := do
  ofTables data (← Tables.read data)

/-- What is odd in an image, also when its sections turn out to lie outside the file. -/
def warnings (data : Bytes) : List Warning :=
  match Tables.read data with
  | .ok t => t.warnings
  | .error _ => []

/-- The number of sections that the file header declares. -/
def sectionCount (image : Image) : Nat :=
  image.header.sectionCount

/-- The first section of a name. -/
def section? (image : Image) (name : String) : Option Section :=
  image.sections.find? fun s => s.name == some name

/-- The contents of the first section of a name; empty when there is none. -/
def sectionData (image : Image) (name : String) : Bytes :=
  match image.section? name with
  | some s => s.data
  | none => []

end Image

end GlobalMap.Coff
