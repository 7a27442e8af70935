import GlobalMap.Proofs.Dwarf.Entries

/-! Reading units gives back the trees that they were written from, wherever the units stand: the
header of a unit says where the next one begins, and a reference that counts from the start of its
unit is read as one that counts from the start of the section. -/
namespace GlobalMap.Dwarf

namespace SourceUnit

variable {u : SourceUnit} {units : List SourceUnit} {sections : Sections}

/-! ## Headers -/

/-- The header of the unit at `base`, with other bytes behind the unit. -/
def header (base : Nat) (u : SourceUnit) (rest : Bytes) : UnitHeader where
  offset := base
  length := u.behindLength.length
  format := .dwarf32
  version := 4
  addressSize := .four
  abbreviationOffset := 0
  top := ⟨base + headerSize, u.top ++ (u.below ++ rest)⟩

theorem length_bytes (u : SourceUnit) : u.bytes.length = 4 + u.behindLength.length := by
  rw [bytes, List.length_append, Bytes.length_ofNatLittle]

theorem size_header (base : Nat) (u : SourceUnit) (rest : Bytes) :
    (u.header base rest).size = u.bytes.length :=
  u.length_bytes.symm

theorem readLength_word {length : Nat} (fits : length < 0xffffff00) (place : Nat) (rest : Bytes) :
    UnitHeader.readLength ⟨place, Bytes.ofNatLittle 4 length ++ rest⟩ =
      .ok ((.dwarf32, length), ⟨place + 4, rest⟩) := by
  have storable : length < Nat.pow 256 4 := by
    change _ < 0x100000000
    omega
  rw [UnitHeader.readLength, Cursor.word_at storable]
  change (if length < 0xffffff00 then _ else _) = _
  rw [if_pos fits]
  rfl

/-- The header of a unit is read as it was written. -/
theorem read_header (fits : u.Fits) (front rest : Bytes) :
    UnitHeader.read (front ++ (u.bytes ++ rest)) front.length =
      .ok (u.header front.length rest) := by
  rw [UnitHeader.read, Cursor.ofOffset_append, bytes, List.append_assoc,
    readLength_word fits.length, behindLength, List.append_assoc, List.append_assoc]
  rfl

/-- The headers of units that stand one behind the other. -/
def headers (base : Nat) : List SourceUnit → List UnitHeader
  | [] => []
  | u :: rest => u.header base (rest.flatMap bytes) :: headers (base + u.bytes.length) rest

/-- Each header leads to the next, up to the end of the section. -/
theorem readFrom_units (fits : ∀ u ∈ units, u.Fits) (front : Bytes) :
    UnitHeader.readFrom (front ++ units.flatMap bytes) (front ++ units.flatMap bytes).length
      front.length = (headers front.length units, none) := by
  induction units generalizing front with
  | nil =>
    rw [UnitHeader.readFrom, List.flatMap_nil, List.append_nil, dif_neg (Nat.lt_irrefl _)]
    rfl
  | cons u units ih =>
    obtain ⟨here, others⟩ := List.forall_mem_cons.mp fits
    have inside : front.length < (front ++ (u.bytes ++ units.flatMap bytes)).length := by
      rw [List.length_append, List.length_append, length_bytes]
      omega
    have later := ih others (front ++ u.bytes)
    have next : (front ++ u.bytes).length = front.length + u.bytes.length := List.length_append
    rw [List.append_assoc, next] at later
    rw [List.flatMap_cons, UnitHeader.readFrom, dif_pos inside, read_header here]
    simp only [size_header, later, headers]

/-! ## Trees -/

/-- The unit as it is loaded. -/
def loaded (base : Nat) (u : SourceUnit) (rest : Bytes) : LoadedUnit where
  header := u.header base rest
  abbreviations := .ok kindTable

theorem load_header (abbreviations : sections.abbreviations = abbreviationBytes) (base : Nat)
    (u : SourceUnit) (rest : Bytes) :
    LoadedUnit.load sections (u.header base rest) = u.loaded base rest := by
  have some : ¬ abbreviationBytes.length ≤ 0 := by
    rw [abbreviationBytes, declarationBytes, List.length_append, List.length_singleton]
    omega
  rw [LoadedUnit.load, abbreviations]
  change LoadedUnit.mk _ (if abbreviationBytes.length ≤ 0 then _ else
    orTruncated (AbbreviationTable.read (abbreviationBytes.drop 0))) = _
  rw [if_neg some, List.drop_zero, read_abbreviationBytes]
  rfl

/-- The record of the first entry. -/
def topRecord (base : Nat) (u : SourceUnit) (rest : Bytes) : Record :=
  recordOf .compileUnit u.attributes (base + headerSize) (u.below ++ rest)

theorem readTop_loaded (fits : u.Fits) (sections : Sections) (base : Nat) (rest : Bytes) :
    (u.loaded base rest).readTop sections = .ok (u.topRecord base rest) := by
  have read : (u.loaded base rest).readRecord sections none (u.header base rest).top = _ :=
    readRecord_entryBytes rfl ⟨rfl, fits.named⟩ sections none (base + headerSize) (u.below ++ rest)
  change ((u.loaded base rest).readRecord sections none (u.header base rest).top >>= fun _ => _) = _
  rw [read]
  rfl

/-- The tree of a unit is read as it was written, in as many steps as it has bytes. -/
theorem tree_loaded {l : LoadedUnits} (fits : u.Fits) (base : Nat) (rest : Bytes) {steps : Nat}
    (enough : u.bytes.length ≤ steps) :
    l.tree (u.loaded base rest) (.ok (u.topRecord base rest)) steps = .ok (u.tree base) := by
  have reads : ReadsBelow l (u.loaded base rest) (.ok (u.topRecord base rest))
      (u.topRecord base rest).fields .compileUnit u.below fun place =>
        inOrder SourceItem.bytes (SourceItem.entry base) place u.items :=
    readsBelow_inOrder rfl SourceItem.length_bytes_pos fun item mem =>
      SourceItem.readsAs rfl (fits.items item mem)
  have below_le : u.below.length ≤ steps := by
    rw [length_bytes, behindLength, List.length_append, List.length_append] at enough
    omega
  have below := reads steps (u.topRecord base rest) (u.itemsPlace base) rest rfl rfl below_le
  have told : (u.topRecord base rest).tagText = .ok (u.tree base).tag := rfl
  rw [LoadedUnits.tree]
  simp only [bind, Except.bind, told, below]
  rw [Record.entry, Record.name_of_text rfl]
  rfl

/-- The unit at `base` as it is read, with its place and its size. -/
def debugUnit (base : Nat) (u : SourceUnit) : DebugUnit where
  offset := base
  length := u.bytes.length
  top := .ok (u.tree base)

theorem debugUnit_loaded {l : LoadedUnits} (fits : u.Fits) (base : Nat) (rest : Bytes) {steps : Nat}
    (enough : u.bytes.length ≤ steps) :
    l.debugUnit (u.loaded base rest) (.ok (u.topRecord base rest)) steps = u.debugUnit base := by
  have size : ((u.loaded base rest).header.size : Int) = u.bytes.length :=
    congrArg Nat.cast (u.size_header base rest)
  rw [LoadedUnits.debugUnit, tree_loaded fits base rest enough, size]
  rfl

theorem debugUnits_headers {l : LoadedUnits} (fits : ∀ u ∈ units, u.Fits)
    (abbreviations : l.sections.abbreviations = abbreviationBytes) {steps : Nat}
    (enough : ∀ u ∈ units, u.bytes.length ≤ steps) (base : Nat) :
    ((headers base units).map fun h => l.debugUnit (LoadedUnit.load l.sections h)
        ((LoadedUnit.load l.sections h).readTop l.sections) steps) =
      inOrder bytes debugUnit base units := by
  induction units generalizing base with
  | nil => rfl
  | cons u units ih =>
    obtain ⟨here, others⟩ := List.forall_mem_cons.mp fits
    obtain ⟨short, shorter⟩ := List.forall_mem_cons.mp enough
    rw [headers, List.map_cons, ih others shorter, load_header abbreviations, readTop_loaded here,
      debugUnit_loaded here _ _ short, inOrder]

/-- **Round trip.** Units that stand one behind the other are read as their trees, each at the place
where it stands, and nothing is damaged. -/
theorem read_units (fits : ∀ u ∈ units, u.Fits)
    (entries : sections.entries = units.flatMap bytes)
    (abbreviations : sections.abbreviations = abbreviationBytes) :
    DebugInfo.read sections = ⟨inOrder bytes debugUnit 0 units, none⟩ := by
  have found : UnitHeader.readAll sections.entries = (headers 0 units, none) := by
    have read := readFrom_units fits []
    rw [List.nil_append, List.length_nil, ← entries] at read
    exact read
  have enough : ∀ u ∈ units, u.bytes.length ≤ sections.reach := by
    intro u mem
    have inside : u.bytes.length ≤ sections.entries.length := by
      rw [entries]
      exact (List.sublist_flatten_of_mem (List.mem_map_of_mem mem)).length_le
    rw [Sections.reach]
    omega
  have loads : LoadedUnits.load sections = ⟨sections, (headers 0 units).map fun h =>
      (LoadedUnit.load sections h, (LoadedUnit.load sections h).readTop sections), none⟩ := by
    rw [LoadedUnits.load, found]
  rw [DebugInfo.read, DebugInfo.readWithin, loads, LoadedUnits.debugInfo, List.map_map]
  exact congrArg (DebugInfo.mk · none) (debugUnits_headers fits abbreviations enough 0)

end SourceUnit

end GlobalMap.Dwarf
