import GlobalMap.Proofs.Coff.Words

/-! How an object file is laid out: file header, optional header, section records,
payloads, symbols and string table, without a gap between them. A name that fits its
field stands there, a longer one in the string table; a section without a payload
has neither a place nor a size. -/
namespace GlobalMap.Coff

/-- What an object file is written from. -/
structure Contents where
  /-- The sections in order, each with its name and its payload. -/
  sections : List (String × Bytes)
  optionalHeader : Bytes := []
  symbols : Bytes := []
  symbolCount : Nat := 0
  targetId : Nat := 0x9d

namespace Contents

variable {name : String} {payload : Bytes} {sections : List (String × Bytes)}

/-- What a name adds to the string table. -/
def longName (name : String) : Bytes :=
  if (encoded name).length ≤ nameFieldSize then [] else encoded name ++ [0]

/-- The field of a name whose place in the string table, if it needs one, is given. -/
def nameField (name : String) (place : Nat) : Bytes :=
  if (encoded name).length ≤ nameFieldSize then
    encoded name ++ List.replicate (nameFieldSize - (encoded name).length) 0
  else Bytes.pack [(4, 0), (4, place)]

/-- The section header of a section whose payload has a given place in the file. -/
def header (name : String) (payload : Bytes) (place : Nat) : SectionHeader where
  name := .ok name
  physicalAddress := 0
  virtualAddress := 0
  size := payload.length
  dataOffset := if payload = [] then 0 else place
  relocationOffset := 0
  relocationCount := 0
  lineCount := 0
  flags := 0x40
  memoryPage := 0

/-- The words of a section record behind the name field. -/
def recordWords (payload : Bytes) (place : Nat) : List (Nat × Nat) :=
  [(4, 0), (4, 0), (4, payload.length), (4, if payload = [] then 0 else place), (4, 0), (4, 0),
    (4, 0), (4, 0), (4, 0x40), (2, 0), (2, 0)]

/-- The records of sections whose names and payloads follow each other from the
given places on. -/
def records (namePlace place : Nat) : List (String × Bytes) → Bytes
  | [] => []
  | (name, payload) :: rest =>
    (nameField name namePlace ++ Bytes.pack (recordWords payload place)) ++
      records (namePlace + (longName name).length) (place + payload.length) rest

/-- The section headers of sections whose payloads follow each other from a place on. -/
def headers (place : Nat) : List (String × Bytes) → List SectionHeader
  | [] => []
  | (name, payload) :: rest => header name payload place :: headers (place + payload.length) rest

/-- The payloads of sections, one after the other. -/
def payloads (sections : List (String × Bytes)) : Bytes :=
  sections.flatMap Prod.snd

/-- The names of sections that are too long for their fields, one after the other. -/
def longNames (sections : List (String × Bytes)) : Bytes :=
  sections.flatMap fun s => longName s.1

/-- The string table starts with its own length. -/
def stringTable (c : Contents) : Bytes :=
  Bytes.pack [(4, 4 + (longNames c.sections).length)] ++ longNames c.sections

/-- Where the section records end and the payloads begin. -/
def payloadPlace (c : Contents) : Nat :=
  FileHeader.size + c.optionalHeader.length + c.sections.length * SectionHeader.recordSize

def fileHeader (c : Contents) : FileHeader where
  versionId := 0xc2
  sectionCount := c.sections.length
  timestamp := 0
  symbolTableOffset := c.payloadPlace + (payloads c.sections).length
  symbolCount := c.symbolCount
  optionalHeaderSize := c.optionalHeader.length
  flags := 0
  targetId := c.targetId

/-- The words of a file header. -/
def headerWords (h : FileHeader) : List (Nat × Nat) :=
  [(2, h.versionId), (2, h.sectionCount), (4, h.timestamp), (4, h.symbolTableOffset),
    (4, h.symbolCount), (2, h.optionalHeaderSize), (2, h.flags), (2, h.targetId)]

/-- The object file. -/
def bytes (c : Contents) : Bytes :=
  Bytes.pack (headerWords c.fileHeader) ++ c.optionalHeader ++
    records 4 c.payloadPlace c.sections ++ payloads c.sections ++ c.symbols ++ c.stringTable

/-- The contents can be written: every section has a name without zero characters,
there are as many symbols as are counted, and counts and places fit their words. -/
structure Fits (c : Contents) : Prop where
  named : ∀ s ∈ c.sections, s.1 ≠ "" ∧ '\x00' ∉ s.1.toList
  symbols : c.symbols.length = c.symbolCount * FileHeader.symbolSize
  sections : c.sections.length < 0x10000
  optionalHeader : c.optionalHeader.length < 0x10000
  targetId : c.targetId < 0x10000
  size : c.bytes.length < 0x100000000

theorem length_nameField (name : String) (place : Nat) :
    (nameField name place).length = nameFieldSize := by
  unfold nameField
  split
  · rw [List.length_append, List.length_replicate]
    omega
  · rfl

theorem length_recordWords (payload : Bytes) (place : Nat) :
    (Bytes.pack (recordWords payload place)).length = 40 :=
  rfl

theorem length_records (namePlace place : Nat) (sections : List (String × Bytes)) :
    (records namePlace place sections).length = sections.length * SectionHeader.recordSize := by
  induction sections generalizing namePlace place with
  | nil => simp only [records, List.length_nil, Nat.zero_mul]
  | cons s rest ih =>
    rw [records, List.length_append, List.length_append, length_nameField, length_recordWords, ih,
      List.length_cons, Nat.succ_mul, Nat.add_comm]
    rfl

theorem length_stringTable (c : Contents) :
    c.stringTable.length = 4 + (longNames c.sections).length := by
  rw [stringTable, List.length_append]
  rfl

theorem length_headerWords (h : FileHeader) :
    (Bytes.pack (headerWords h)).length = FileHeader.size :=
  rfl

theorem length_bytes (c : Contents) :
    c.bytes.length = c.payloadPlace + (payloads c.sections).length + c.symbols.length +
      (4 + (longNames c.sections).length) := by
  simp only [bytes, List.length_append, length_headerWords, length_records, length_stringTable,
    payloadPlace]

end Contents

end GlobalMap.Coff
