import GlobalMap.Coff.Image

/-! Which byte strings are object files. `Bounded` says of the words of a file that everything they
speak of lies inside it, and `Described` what an image has to do with these words; neither looks at
how a file is read. Reading gives an image exactly for the bounded files, and the image is the
described one. -/
namespace GlobalMap.Coff

variable {data record table : Bytes} {start length width offset : Nat}

/-- The number that some bytes of a file are. Bytes behind the end of the file are not there. -/
def wordAt (data : Bytes) (width start : Nat) : Nat :=
  Bytes.littleEndian ((data.drop start).take width)

/-- The file header that the words at the start of a file make. -/
def FileHeader.spelled (data : Bytes) : FileHeader where
  versionId := wordAt data 2 0
  sectionCount := wordAt data 2 2
  timestamp := wordAt data 4 4
  symbolTableOffset := wordAt data 4 8
  symbolCount := wordAt data 4 12
  optionalHeaderSize := wordAt data 2 16
  flags := wordAt data 2 18
  targetId := wordAt data 2 20

/-- The section header that the words of a record make. Its name is looked up in a table. -/
def SectionHeader.spelled (data table : Bytes) (start : Nat) : SectionHeader where
  name := resolveName ((data.drop start).take 8) table
  physicalAddress := wordAt data 4 (start + 8)
  virtualAddress := wordAt data 4 (start + 12)
  size := wordAt data 4 (start + 16)
  dataOffset := wordAt data 4 (start + 20)
  relocationOffset := wordAt data 4 (start + 24)
  relocationCount := wordAt data 4 (start + 32)
  lineCount := wordAt data 4 (start + 36)
  flags := wordAt data 4 (start + 40)
  memoryPage := wordAt data 2 (start + 46)

/-- Where a section record starts: behind the file header, the optional header and the records
before it. -/
def recordPlace (data : Bytes) (index : Nat) : Nat :=
  22 + wordAt data 2 16 + index * 48

/-- Everything that the words of a file speak of lies inside the file. -/
structure Bounded (data : Bytes) : Prop where
  header : 22 ≤ data.length
  records : recordPlace data (wordAt data 2 2) ≤ data.length
  symbols : wordAt data 4 8 = 0 ∨ wordAt data 4 8 + wordAt data 4 12 * 18 ≤ data.length
  payloads : ∀ index < wordAt data 2 2,
    wordAt data 4 (recordPlace data index + 20) ≠ 0 →
      wordAt data 4 (recordPlace data index + 16) ≠ 0 →
        wordAt data 4 (recordPlace data index + 20) + wordAt data 4 (recordPlace data index + 16) ≤
          data.length

/-- An image is what the words of a file say. -/
structure Described (data : Bytes) (image : Image) : Prop where
  header : image.header = .spelled data
  /-- There are as many section headers as are declared. -/
  count : image.sectionHeaders.length = image.sectionCount
  /-- Each of them is that of its record, also where it has no name. -/
  headers : ∀ index < image.sectionCount, image.sectionHeaders[index]? =
    some (.spelled data image.stringTable (recordPlace data index))
  /-- The sections are those with a place and a size, in the order of the records, and each holds
  the bytes at its place. -/
  sections : image.sections =
    (image.sectionHeaders.filter fun h => h.dataOffset ≠ 0 ∧ h.size ≠ 0).map fun h =>
      ⟨h.name.toOption, h.dataOffset, (data.drop h.dataOffset).take h.size⟩
  /-- No payload is shorter than its size. -/
  whole : image.sections.map (fun s => s.data.length) =
    (image.sectionHeaders.filter fun h => h.dataOffset ≠ 0 ∧ h.size ≠ 0).map SectionHeader.size
  /-- A stripped file has no symbols and no strings. -/
  stripped : image.header.symbolTableOffset = 0 → image.symbolTable = [] ∧ image.stringTable = []
  /-- In any other file they are all that stands from the place of the symbols on. -/
  tables : image.header.symbolTableOffset ≠ 0 →
    image.symbolTable.length = image.header.symbolCount * 18 ∧
      image.symbolTable ++ image.stringTable = data.drop image.header.symbolTableOffset

/-! ## Words and tables -/

theorem readField_of_le (inside : offset + width ≤ record.length) :
    readField width record offset = .ok (wordAt record width offset) := by
  have bounds : ¬ ((offset : Int) < 0 ∨ (record.length : Int) < offset + width) := by omega
  rw [readField, Bytes.readWord, if_neg bounds]
  rfl

/-- A word of a record that is cut out of a file stands in the file. -/
theorem wordAt_cut (inside : offset + width ≤ length) :
    wordAt ((data.drop start).take length) width offset = wordAt data width (start + offset) := by
  have short : min width (length - offset) = width := by omega
  rw [wordAt, wordAt, List.drop_take, List.take_take, List.drop_drop, short]

theorem cutTable_of_le (inside : start + length ≤ data.length) (what : String) :
    cutTable data start length what = .ok ((data.drop start).take length) := by
  have bounds : ¬ ((start : Int) < 0 ∨ (length : Int) < 0 ∨
      (data.length : Int) < start + length) := by omega
  rw [cutTable, Bytes.cut, if_neg bounds]
  rfl

theorem cutTable_of_lt (outside : data.length < start + length) (what : String) :
    cutTable data start length what =
      .error (.table ⟨what, start, start + length, data.length⟩) := by
  have bounds : (start : Int) < 0 ∨ (length : Int) < 0 ∨
      (data.length : Int) < start + length := by omega
  rw [cutTable, Bytes.cut, if_pos bounds]
  rfl

/-! ## Headers -/

theorem FileHeader.read_of_le (long : 22 ≤ data.length) :
    FileHeader.read data = .ok (.spelled data) := by
  have size : ¬ data.length < FileHeader.size := by
    rw [FileHeader.size]
    omega
  rw [FileHeader.read, if_neg size, readField_of_le (by omega : 0 + 2 ≤ data.length),
    readField_of_le (by omega : 2 + 2 ≤ data.length),
    readField_of_le (by omega : 4 + 4 ≤ data.length),
    readField_of_le (by omega : 8 + 4 ≤ data.length),
    readField_of_le (by omega : 12 + 4 ≤ data.length),
    readField_of_le (by omega : 16 + 2 ≤ data.length),
    readField_of_le (by omega : 18 + 2 ≤ data.length),
    readField_of_le (by omega : 20 + 2 ≤ data.length)]
  rfl

/-- A whole record is read, whatever becomes of its name. -/
theorem SectionHeader.read_of_le (inside : start + 48 ≤ data.length) :
    SectionHeader.read ((data.drop start).take 48) table = .ok (.spelled data table start) := by
  have size : ((data.drop start).take 48).length = 48 := by
    rw [List.length_take, List.length_drop]
    omega
  have field (width offset : Nat) (fits : offset + width ≤ 48) :
      readField width ((data.drop start).take 48) offset =
        .ok (wordAt data width (start + offset)) := by
    rw [readField_of_le (by rwa [size]), wordAt_cut fits]
  have name : SectionHeader.nameOf ((data.drop start).take 48) table =
      resolveName ((data.drop start).take 8) table := by
    rw [SectionHeader.nameOf, List.take_take]
    rfl
  rw [SectionHeader.read, name, field 4 8 (by omega), field 4 12 (by omega), field 4 16 (by omega),
    field 4 20 (by omega), field 4 24 (by omega), field 4 32 (by omega), field 4 36 (by omega),
    field 4 40 (by omega), field 2 46 (by omega)]
  rfl

/-- Whole records are read one behind the other. -/
theorem readHeaders_of_le (count : Nat) (inside : start + count * 48 ≤ data.length) :
    Tables.readHeaders table count ((data.drop start).take (count * 48)) =
      .ok ((List.range count).map fun index => .spelled data table (start + index * 48)) := by
  induction count generalizing start with
  | zero => rfl
  | succ count ih =>
    have first : ((data.drop start).take ((count + 1) * 48)).take SectionHeader.recordSize =
        (data.drop start).take 48 := by
      rw [List.take_take, SectionHeader.recordSize]
      congr 1
      omega
    have others : ((data.drop start).take ((count + 1) * 48)).drop SectionHeader.recordSize =
        (data.drop (start + 48)).take (count * 48) := by
      rw [List.drop_take, List.drop_drop, SectionHeader.recordSize]
      congr 1
      omega
    have later : Tables.readHeaders table count
        ((data.drop (start + 48)).take (count * 48)) =
          .ok ((List.range count).map fun index => .spelled data table (start + 48 + index * 48)) :=
      ih (by omega)
    rw [Tables.readHeaders, first, others, SectionHeader.read_of_le (by omega), later,
      List.range_succ_eq_map, List.map_cons, List.map_map, Nat.zero_mul]
    have places : (fun index => SectionHeader.spelled data table (start + 48 + index * 48)) =
        (fun index => .spelled data table (start + index * 48)) ∘ Nat.succ := by
      funext index
      rw [Function.comp_apply, Nat.succ_mul, Nat.add_assoc, Nat.add_comm 48]
    rw [places]
    rfl

/-! ## The whole file -/

/-- The symbols of a file. -/
def symbolsOf (data : Bytes) : Bytes :=
  if wordAt data 4 8 = 0 then [] else (data.drop (wordAt data 4 8)).take (wordAt data 4 12 * 18)

/-- The string table of a file: all behind the symbols. -/
def stringsOf (data : Bytes) : Bytes :=
  if wordAt data 4 8 = 0 then [] else data.drop (wordAt data 4 8 + wordAt data 4 12 * 18)

/-- The section headers of a file. -/
def headersOf (data : Bytes) : List SectionHeader :=
  (List.range (wordAt data 2 2)).map fun index =>
    .spelled data (stringsOf data) (recordPlace data index)

theorem readSymbols_of_le
    (inside : wordAt data 4 8 = 0 ∨ wordAt data 4 8 + wordAt data 4 12 * 18 ≤ data.length) :
    Tables.readSymbols data (.spelled data) = .ok (symbolsOf data, stringsOf data) := by
  have place : (FileHeader.spelled data).symbolTableOffset = wordAt data 4 8 := rfl
  have size : (FileHeader.spelled data).symbolTableSize = wordAt data 4 12 * 18 := rfl
  rw [Tables.readSymbols, place, size, symbolsOf, stringsOf]
  by_cases none : wordAt data 4 8 = 0
  · rw [if_pos none, if_pos none, if_pos none]
  · have fits : wordAt data 4 8 + wordAt data 4 12 * 18 ≤ data.length := inside.resolve_left none
    -- The strings end where the file does.
    have rest : (data.drop (wordAt data 4 8 + wordAt data 4 12 * 18)).take
        (data.length - (wordAt data 4 8 + wordAt data 4 12 * 18)) =
          data.drop (wordAt data 4 8 + wordAt data 4 12 * 18) :=
      List.take_of_length_le (Nat.le_of_eq List.length_drop)
    have inside : wordAt data 4 8 + wordAt data 4 12 * 18 +
        (data.length - (wordAt data 4 8 + wordAt data 4 12 * 18)) ≤ data.length := by omega
    have strings := cutTable_of_le inside "String table"
    rw [if_neg none, if_neg none, if_neg none, cutTable_of_le fits]
    change (cutTable data (wordAt data 4 8 + wordAt data 4 12 * 18)
      (data.length - (wordAt data 4 8 + wordAt data 4 12 * 18)) "String table" >>= _) = _
    rw [strings, rest]
    rfl

theorem readSymbols_of_lt (present : wordAt data 4 8 ≠ 0)
    (outside : data.length < wordAt data 4 8 + wordAt data 4 12 * 18) :
    ∃ fault, Tables.readSymbols data (.spelled data) = .error fault := by
  have place : (FileHeader.spelled data).symbolTableOffset = wordAt data 4 8 := rfl
  have size : (FileHeader.spelled data).symbolTableSize = wordAt data 4 12 * 18 := rfl
  refine ⟨.table ⟨"Symbol table", wordAt data 4 8, wordAt data 4 8 + wordAt data 4 12 * 18,
    data.length⟩, ?_⟩
  rw [Tables.readSymbols, place, size, if_neg present, cutTable_of_lt outside]
  rfl

/-- The tables of a file are read if they lie inside it. -/
theorem Tables.read_of_le (header : 22 ≤ data.length)
    (records : recordPlace data (wordAt data 2 2) ≤ data.length)
    (symbols : wordAt data 4 8 = 0 ∨ wordAt data 4 8 + wordAt data 4 12 * 18 ≤ data.length) :
    Tables.read data =
      .ok ⟨.spelled data, symbolsOf data, stringsOf data, headersOf data⟩ := by
  have cut := cutTable_of_le records "Section header table"
  have headers : Tables.readHeaders (stringsOf data) (wordAt data 2 2)
      ((data.drop (22 + wordAt data 2 16)).take (wordAt data 2 2 * 48)) = .ok (headersOf data) :=
    readHeaders_of_le (wordAt data 2 2) records
  rw [Tables.read, FileHeader.read_of_le header]
  change (cutTable data (22 + wordAt data 2 16) (wordAt data 2 2 * 48) "Section header table" >>=
    fun records => Tables.readSymbols data (.spelled data) >>= fun found =>
      Tables.readHeaders found.2 (wordAt data 2 2) records >>= fun headers =>
        Except.ok (⟨.spelled data, found.1, found.2, headers⟩ : Tables)) = _
  rw [cut, readSymbols_of_le symbols]
  change (Tables.readHeaders (stringsOf data) (wordAt data 2 2)
    ((data.drop (22 + wordAt data 2 16)).take (wordAt data 2 2 * 48)) >>= fun headers =>
      Except.ok (⟨.spelled data, symbolsOf data, stringsOf data, headers⟩ : Tables)) = _
  rw [headers]
  rfl

/-- A table that does not lie inside the file is refused, and so is a file without a header. -/
theorem Tables.read_of_lt (outside : ¬ (22 ≤ data.length ∧
      recordPlace data (wordAt data 2 2) ≤ data.length ∧
      (wordAt data 4 8 = 0 ∨ wordAt data 4 8 + wordAt data 4 12 * 18 ≤ data.length))) :
    ∃ fault, Tables.read data = .error fault := by
  by_cases header : 22 ≤ data.length
  · by_cases records : recordPlace data (wordAt data 2 2) ≤ data.length
    · have present : wordAt data 4 8 ≠ 0 := fun none => outside ⟨header, records, .inl none⟩
      have symbols : data.length < wordAt data 4 8 + wordAt data 4 12 * 18 :=
        Nat.not_le.mp fun fits => outside ⟨header, records, .inr fits⟩
      have cut := cutTable_of_le records "Section header table"
      obtain ⟨fault, refused⟩ := readSymbols_of_lt present symbols
      refine ⟨fault, ?_⟩
      rw [Tables.read, FileHeader.read_of_le header]
      change (cutTable data (22 + wordAt data 2 16) (wordAt data 2 2 * 48)
        "Section header table" >>= fun records =>
          Tables.readSymbols data (.spelled data) >>= _) = _
      rw [cut, refused]
      rfl
    · have beyond := cutTable_of_lt (Nat.not_le.mp records) "Section header table"
      refine ⟨.table ⟨"Section header table", (22 + wordAt data 2 16 : Nat),
        (22 + wordAt data 2 16 : Nat) + (wordAt data 2 2 * 48 : Nat), data.length⟩, ?_⟩
      rw [Tables.read, FileHeader.read_of_le header]
      change (cutTable data (22 + wordAt data 2 16) (wordAt data 2 2 * 48)
        "Section header table" >>= _) = _
      rw [beyond]
      rfl
  · have short : data.length < FileHeader.size := Nat.not_le.mp header
    refine ⟨.shortHeader data.length, ?_⟩
    rw [Tables.read, FileHeader.read, if_pos short]
    rfl

/-- The image of a file. -/
def imageOf (data : Bytes) : Image where
  header := .spelled data
  sectionHeaders := headersOf data
  sections := ((headersOf data).filter SectionHeader.hasData).map (Image.sectionOf data)
  symbolTable := symbolsOf data
  stringTable := stringsOf data

theorem mem_headersOf {h : SectionHeader} : h ∈ headersOf data ↔
    ∃ index < wordAt data 2 2, h = .spelled data (stringsOf data) (recordPlace data index) := by
  simp only [headersOf, List.mem_map, List.mem_range, eq_comm]

theorem hasData_iff (h : SectionHeader) : h.hasData = decide (h.dataOffset ≠ 0 ∧ h.size ≠ 0) := by
  rw [Bool.eq_iff_iff]
  simp [SectionHeader.hasData]

/-- A payload inside the file has all its bytes. -/
theorem length_sectionOf (bounded : Bounded data) {h : SectionHeader} (mem : h ∈ headersOf data)
    (held : h.hasData = true) : (Image.sectionOf data h).data.length = h.size := by
  obtain ⟨index, declared, rfl⟩ := mem_headersOf.mp mem
  rw [hasData_iff, decide_eq_true_iff] at held
  have fits := bounded.payloads index declared held.1 held.2
  change ((data.drop (wordAt data 4 (recordPlace data index + 20))).take
    (wordAt data 4 (recordPlace data index + 16))).length =
      wordAt data 4 (recordPlace data index + 16)
  rw [List.length_take, List.length_drop]
  omega

theorem described_imageOf (bounded : Bounded data) : Described data (imageOf data) where
  header := rfl
  count := by
    rw [imageOf, headersOf, List.length_map, List.length_range]
    rfl
  headers := by
    intro index declared
    change (headersOf data)[index]? = _
    have place : (List.range (wordAt data 2 2))[index]? = some index :=
      List.getElem?_range declared
    rw [headersOf, List.getElem?_map, place]
    rfl
  sections := by
    rw [← funext hasData_iff]
    rfl
  whole := by
    rw [← funext hasData_iff, imageOf, List.map_map]
    apply List.map_congr_left
    intro h mem
    obtain ⟨mem, held⟩ := List.mem_filter.mp mem
    exact length_sectionOf bounded mem held
  stripped := by
    intro none
    exact ⟨if_pos none, if_pos none⟩
  tables := by
    intro present
    have fits : wordAt data 4 8 + wordAt data 4 12 * 18 ≤ data.length :=
      bounded.symbols.resolve_left present
    change (symbolsOf data).length = wordAt data 4 12 * 18 ∧
      symbolsOf data ++ stringsOf data = data.drop (wordAt data 4 8)
    change wordAt data 4 8 ≠ 0 at present
    rw [symbolsOf, stringsOf, if_neg present, if_neg present, List.length_take, List.length_drop,
      ← List.drop_drop]
    exact ⟨by omega, List.take_append_drop _ _⟩

/-- A section that ends behind the file is found among the headers, and only then. -/
theorem overrun?_eq_none_iff (t : Tables) (size : Nat) : t.overrun? size = none ↔
    ∀ h ∈ t.sectionHeaders, h.dataOffset ≠ 0 → h.size ≠ 0 → h.endOffset ≤ size := by
  simp only [Tables.overrun?, List.find?_eq_none, hasData_iff, Bool.and_eq_true,
    decide_eq_true_iff, not_and, Nat.not_lt, and_imp]

/-- **What is an object file.** A file that everything it speaks of lies inside is read, as the
image that its words describe. Any other file is refused as malformed. -/
theorem read_bounded_or_refused (data : Bytes) :
    (Bounded data ∧ ∃ image, Image.read data = .ok image ∧ Described data image) ∨
      (¬ Bounded data ∧ ∃ fault : Malformed, Image.read data = .error fault) := by
  by_cases tables : 22 ≤ data.length ∧ recordPlace data (wordAt data 2 2) ≤ data.length ∧
      (wordAt data 4 8 = 0 ∨ wordAt data 4 8 + wordAt data 4 12 * 18 ≤ data.length)
  · obtain ⟨header, records, symbols⟩ := tables
    have payloads := overrun?_eq_none_iff
      ⟨.spelled data, symbolsOf data, stringsOf data, headersOf data⟩ data.length
    have read : Image.read data = Image.ofTables data
        ⟨.spelled data, symbolsOf data, stringsOf data, headersOf data⟩ := by
      rw [Image.read, Tables.read_of_le header records symbols]
      rfl
    rw [read, Image.ofTables]
    cases found : Tables.overrun? ⟨.spelled data, symbolsOf data, stringsOf data, headersOf data⟩
        data.length with
    | none =>
      have bounded : Bounded data := by
        refine ⟨header, records, symbols, fun index declared place size => ?_⟩
        exact payloads.mp found _ (mem_headersOf.mpr ⟨index, declared, rfl⟩) place size
      exact .inl ⟨bounded, imageOf data, rfl, described_imageOf bounded⟩
    | some h =>
      refine .inr ⟨fun bounded => ?_, _, rfl⟩
      have missing := payloads.mpr fun h mem place size => by
        obtain ⟨index, declared, rfl⟩ := mem_headersOf.mp mem
        exact bounded.payloads index declared place size
      rw [found] at missing
      cases missing
  · refine .inr ⟨fun bounded => tables ⟨bounded.header, bounded.records, bounded.symbols⟩, ?_⟩
    obtain ⟨fault, refused⟩ := Tables.read_of_lt tables
    exact ⟨fault, by rw [Image.read, refused]; rfl⟩

end GlobalMap.Coff
