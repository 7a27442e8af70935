import GlobalMap.Coff.Name
/-!
The file header of a COFF object file and the records of its section header table.
-/
namespace GlobalMap.Coff

/-- Why a byte string is not an object file. -/
inductive Malformed where
  /-- A field of a record lies outside the record. -/
  | field (overrun : Bytes.Overrun)
  /-- The file is shorter than its header. -/
  | shortHeader (size : Nat)
  /-- A table lies outside the file. -/
  | table (outside : Bytes.Outside)
  /-- The contents of a section lie outside the file. -/
  | payload (name : Option String) (start stop size : Nat)
  deriving DecidableEq, Repr

/-- The header at the start of the file. -/
structure FileHeader where
  versionId : Nat
  sectionCount : Nat
  timestamp : Nat
  symbolTableOffset : Nat
  symbolCount : Nat
  optionalHeaderSize : Nat
  flags : Nat
  targetId : Nat
  deriving DecidableEq, Repr

namespace FileHeader

/-- The number of bytes of the header. -/
def size : Nat := 22

/-- The number of bytes of one symbol. -/
def symbolSize : Nat := 18

/-- The number of bytes of the symbol table. -/
def symbolTableSize (h : FileHeader) : Nat :=
  h.symbolCount * symbolSize

/-- The section header table stands right behind the optional header. -/
def sectionTableOffset (h : FileHeader) : Nat :=
  size + h.optionalHeaderSize

/-- The processor family that a target id stands for. -/
def machineName (h : FileHeader) : String :=
  match h.targetId with
  | 0x97 => "TMS470"
  | 0x98 => "C5400"
  | 0x99 => "C6000"
  | 0x9c => "C5500"
  | 0x9d => "C2800"
  | 0xa0 => "MSP430"
  | 0xa1 => "C5500+"
  | _ => "unknown"

end FileHeader

namespace Malformed

def message : Malformed → String
  | field overrun => overrun.message
  | shortHeader size =>
    s!"File is {size} bytes, shorter than the {FileHeader.size} byte header"
  | table outside => outside.message
  | payload name start stop size =>
    s!"Section {Text.Quoted.optional name} [{start}, {stop}) lies outside the {size} byte file"

end Malformed

/-- A word of a record. -/
def readField (width : Nat) (record : Bytes) (offset : Nat) : Except Malformed Nat :=
  (Bytes.readWord width record offset).mapError .field

/-- A table of the file. -/
def cutTable (data : Bytes) (start length : Nat) (what : String) : Except Malformed Bytes :=
  (Bytes.cut data start length what).mapError .table

namespace FileHeader

def read (data : Bytes) : Except Malformed FileHeader :=
  if data.length < size then
    .error (.shortHeader data.length)
  else do
    return {
      versionId := ← readField 2 data 0
      sectionCount := ← readField 2 data 2
      timestamp := ← readField 4 data 4
      symbolTableOffset := ← readField 4 data 8
      symbolCount := ← readField 4 data 12
      optionalHeaderSize := ← readField 2 data 16
      flags := ← readField 2 data 18
      targetId := ← readField 2 data 20 }

end FileHeader

/-- One record of the section header table. Its name is kept with the reason when it has none. -/
structure SectionHeader where
  name : Except NameFault String
  physicalAddress : Nat
  virtualAddress : Nat
  size : Nat
  dataOffset : Nat
  relocationOffset : Nat
  relocationCount : Nat
  lineCount : Nat
  flags : Nat
  memoryPage : Nat

namespace SectionHeader

/-- The number of bytes of a record. -/
def recordSize : Nat := 48

/-- A section with a zero offset or a zero size has no contents in the file. -/
def hasData (h : SectionHeader) : Bool :=
  h.dataOffset != 0 && h.size != 0

/-- Where the contents end. -/
def endOffset (h : SectionHeader) : Nat :=
  h.dataOffset + h.size

/-- The name of a record, against a string table. -/
def nameOf (record table : Bytes) : Except NameFault String :=
  resolveName (record.take nameFieldSize) table

/-- A record, its name looked up in a string table. -/
def read (record table : Bytes) : Except Malformed SectionHeader := do
  return {
    name := nameOf record table
    physicalAddress := ← readField 4 record 8
    virtualAddress := ← readField 4 record 12
    size := ← readField 4 record 16
    dataOffset := ← readField 4 record 20
    relocationOffset := ← readField 4 record 24
    relocationCount := ← readField 4 record 32
    lineCount := ← readField 4 record 36
    flags := ← readField 4 record 40
    memoryPage := ← readField 2 record 46 }

end SectionHeader

end GlobalMap.Coff
