import GlobalMap.Bytes
import GlobalMap.Text.Quoted
/-!
Section names.

A name field is 8 bytes. When its first byte is not zero the name stands in the field itself, filled
up with zero bytes. Otherwise bytes 4 to 8 hold an offset into the string table, where the name runs
up to the next zero byte or to the table's end. A name is UTF-8.
-/
namespace GlobalMap.Coff

/-- The number of bytes of a name field. -/
def nameFieldSize : Nat := 8

/-- Why a name field names nothing. -/
inductive NameFault where
  /-- The field has the wrong number of bytes. -/
  | fieldSize (size : Nat)
  /-- The field refers past the end of the string table. -/
  | outOfTable (offset tableSize : Nat)
  /-- The bytes of the name are not UTF-8. -/
  | notText (bytes : Bytes)
  deriving DecidableEq, Repr

namespace NameFault

def message : NameFault → String
  | fieldSize size => s!"Name field must be {nameFieldSize} bytes, got {size}"
  | outOfTable offset tableSize =>
    s!"String table offset {offset} out of range (table is {tableSize} bytes)"
  | notText bytes => s!"Name bytes {Text.Quoted.bytes bytes} are not valid text"

end NameFault

/-- The bytes before the first zero byte. -/
def untilZero (bytes : Bytes) : Bytes :=
  bytes.takeWhile (· != 0)

/-- The text that the bytes of a name encode. -/
def decodeName (bytes : Bytes) : Except NameFault String :=
  match bytes.utf8? with
  | some text => .ok text
  | none => .error (.notText bytes)

/-- The name that a field gives, looked up in the string table if it does not hold it itself. -/
def resolveName (field table : Bytes) : Except NameFault String :=
  match field with
  | [b0, _, _, _, b4, b5, b6, b7] =>
    if b0 ≠ 0 then
      decodeName (untilZero field)
    else
      let offset := Bytes.littleEndian [b4, b5, b6, b7]
      if table.length ≤ offset then
        .error (.outOfTable offset table.length)
      else
        decodeName (untilZero (table.drop offset))
  | _ => .error (.fieldSize field.length)

end GlobalMap.Coff
