import GlobalMap.Dwarf.Scan
/-!
Places in a section: an offset and the bytes from there on.

Each reader takes a value from its cursor and hands back the cursor behind it, or fails when the
section ends before the value does.
-/
namespace GlobalMap.Dwarf

/-- A place in a section. -/
structure Cursor where
  offset : Nat
  rest : Bytes

namespace Cursor

/-- The place at an offset. -/
def ofOffset (data : Bytes) (offset : Nat) : Cursor :=
  ⟨offset, data.drop offset⟩

/-- The next `size` bytes. -/
def block (size : Nat) (c : Cursor) : Option (Bytes × Cursor) :=
  (Dwarf.block size c.rest).map fun (data, rest) => (data, ⟨c.offset + size, rest⟩)

/-- A little-endian word. -/
def word (width : Nat) (c : Cursor) : Option (Nat × Cursor) :=
  (Dwarf.word .little width c.rest).map fun (n, rest) => (n, ⟨c.offset + width, rest⟩)

/-- The number of bytes of a LEB128 number. -/
def lebSize (bytes : Bytes) : Nat :=
  (bytes.takeWhile (0x80 ≤ ·)).length + 1

def uleb (c : Cursor) : Option (Nat × Cursor) :=
  (Dwarf.uleb c.rest).map fun (n, rest) => (n, ⟨c.offset + lebSize c.rest, rest⟩)

def sleb (c : Cursor) : Option (Int × Cursor) :=
  (Dwarf.sleb c.rest).map fun (n, rest) => (n, ⟨c.offset + lebSize c.rest, rest⟩)

/-- The bytes up to the next zero byte, which is taken as well. -/
def terminated (c : Cursor) : Option (Bytes × Cursor) :=
  (Dwarf.terminated c.rest).map fun (data, rest) => (data, ⟨c.offset + data.length + 1, rest⟩)

theorem uleb_length {c next : Cursor} {n : Nat} (h : c.uleb = some (n, next)) :
    next.rest.length < c.rest.length := by
  simp only [uleb, Option.map_eq_some_iff, Prod.mk.injEq, Prod.exists] at h
  obtain ⟨_, _, hu, _, rfl⟩ := h
  exact Dwarf.uleb_length hu

end Cursor

end GlobalMap.Dwarf
