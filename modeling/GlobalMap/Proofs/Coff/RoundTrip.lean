import GlobalMap.Proofs.Coff.Layout

/-! Reading an object file gives back what it was written from, whatever the number
of its sections and the lengths of their names and payloads, and finds nothing odd
about it. -/
namespace GlobalMap.Coff

open Contents

variable {name : String} {payload table : Bytes} {sections : List (String × Bytes)}

/-- Every number fits the word that it is written to. -/
def Storable (words : List (Nat × Nat)) : Prop :=
  ∀ word ∈ words, word.2 < Nat.pow 256 word.1

theorem readField_pack {words : List (Nat × Nat)} {width n offset : Nat}
    (storable : Storable words) (front rest : Bytes) (index : Nat)
    (held : words[index]? = some (width, n))
    (place : offset = front.length + (Bytes.pack (words.take index)).length) :
    readField width (front ++ (Bytes.pack words ++ rest)) offset = .ok n := by
  obtain ⟨inside, word⟩ := List.getElem?_eq_some_iff.mp held
  have split : words = words.take index ++ (width, n) :: words.drop (index + 1) := by
    rw [← word, List.getElem_cons_drop, List.take_append_drop]
  have fits : n < Nat.pow 256 width := storable (width, n) (List.mem_of_getElem? held)
  have found :=
    Bytes.readWord_pack front (words.take index) (words.drop (index + 1)) rest place fits
  rw [← split] at found
  rw [readField, found]
  rfl

theorem cutTable_append (front inner rest : Bytes) (what : String) :
    cutTable (front ++ (inner ++ rest)) front.length inner.length what = .ok inner := by
  rw [cutTable, Bytes.cut_append]
  rfl

/-- A file header is read as it was written. -/
theorem read_headerWords {h : FileHeader} (storable : Storable (headerWords h)) (rest : Bytes) :
    FileHeader.read (Bytes.pack (headerWords h) ++ rest) = .ok h := by
  have long : ¬ (Bytes.pack (headerWords h) ++ rest).length < FileHeader.size := by
    rw [List.length_append, length_headerWords]
    omega
  have field (index offset : Nat) {width n : Nat}
      (held : (headerWords h)[index]? = some (width, n))
      (place : offset = (Bytes.pack ((headerWords h).take index)).length) :
      readField width (Bytes.pack (headerWords h) ++ rest) offset = .ok n :=
    readField_pack storable [] rest index held (place.trans (Nat.zero_add _).symm)
  rw [FileHeader.read, if_neg long, field 0 0 rfl rfl, field 1 2 rfl rfl, field 2 4 rfl rfl,
    field 3 8 rfl rfl, field 4 12 rfl rfl, field 5 16 rfl rfl, field 6 18 rfl rfl,
    field 7 20 rfl rfl]
  rfl

/-! ## Names -/

theorem resolveName_inline {field : Bytes} (size : field.length = nameFieldSize)
    (inline : field.head? ≠ some 0) (table : Bytes) :
    resolveName field table = decodeName (untilZero field) := by
  match field, size with
  | [b0, _, _, _, _, _, _, _], _ =>
    have first : b0 ≠ 0 := by
      rintro rfl
      exact inline rfl
    simp only [resolveName, if_pos first]

theorem resolveName_place {place : Nat} (storable : place < Nat.pow 256 4)
    (inside : place < table.length) :
    resolveName (Bytes.pack [(4, 0), (4, place)]) table =
      decodeName (untilZero (table.drop place)) := by
  have value := Bytes.littleEndian_ofNatLittle storable
  have outside : ¬ table.length ≤ Bytes.littleEndian (Bytes.ofNatLittle 4 place) := by omega
  change (if table.length ≤ Bytes.littleEndian (Bytes.ofNatLittle 4 place) then _ else
    decodeName (untilZero (table.drop (Bytes.littleEndian (Bytes.ofNatLittle 4 place))))) = _
  rw [if_neg outside, value]

/-- A name is resolved from its field and the place that it has in the table. -/
theorem resolveName_nameField (front rest : Bytes) (named : name ≠ "")
    (plain : '\x00' ∉ name.toList) (storable : front.length < Nat.pow 256 4) :
    resolveName (nameField name front.length) (front ++ (longName name ++ rest)) = .ok name := by
  have bytes := zero_notMem_encoded plain
  have nonempty := encoded_ne_nil named
  unfold nameField longName
  by_cases short : (encoded name).length ≤ nameFieldSize
  · rw [if_pos short]
    have size : (encoded name ++
        List.replicate (nameFieldSize - (encoded name).length) 0).length = nameFieldSize := by
      rw [List.length_append, List.length_replicate]
      omega
    have inline : (encoded name ++
        List.replicate (nameFieldSize - (encoded name).length) 0).head? ≠ some 0 := by
      obtain ⟨first, others, shape⟩ := List.exists_cons_of_ne_nil nonempty
      rw [shape, List.cons_append, List.head?_cons]
      intro zero
      cases zero
      exact bytes (shape ▸ List.mem_cons_self)
    rw [resolveName_inline size inline, untilZero_append bytes, untilZero_replicate,
      List.append_nil, decodeName_encoded]
  · rw [if_neg short, if_neg short]
    have inside : front.length < (front ++ (encoded name ++ [0] ++ rest)).length := by
      simp only [List.length_append, List.length_singleton]
      omega
    rw [resolveName_place storable inside, List.drop_left, List.append_assoc,
      untilZero_append bytes]
    have stop : untilZero ([0] ++ rest) = [] := rfl
    rw [stop, List.append_nil, decodeName_encoded]

/-! ## Section records -/

/-- A section record is read as it was written. -/
theorem read_record (front rest : Bytes) {place : Nat} (named : name ≠ "")
    (plain : '\x00' ∉ name.toList) (inTable : front.length < Nat.pow 256 4)
    (storable : Storable (recordWords payload place)) :
    SectionHeader.read
        (nameField name front.length ++ Bytes.pack (recordWords payload place))
        (front ++ (longName name ++ rest)) =
      .ok (header name payload place) := by
  have field (index offset : Nat) {width n : Nat}
      (held : (recordWords payload place)[index]? = some (width, n))
      (behind : offset =
        nameFieldSize + (Bytes.pack ((recordWords payload place).take index)).length) :
      readField width
        (nameField name front.length ++ Bytes.pack (recordWords payload place)) offset = .ok n := by
    rw [← length_nameField name front.length] at behind
    have found := readField_pack storable (nameField name front.length) [] index held behind
    rwa [List.append_nil] at found
  have resolved : SectionHeader.nameOf
      (nameField name front.length ++ Bytes.pack (recordWords payload place))
      (front ++ (longName name ++ rest)) = .ok name := by
    rw [SectionHeader.nameOf, ← length_nameField name front.length, List.take_left]
    exact resolveName_nameField front rest named plain inTable
  rw [SectionHeader.read, resolved, field 0 8 rfl rfl, field 1 12 rfl rfl, field 2 16 rfl rfl,
    field 3 20 rfl rfl, field 4 24 rfl rfl, field 6 32 rfl rfl, field 7 36 rfl rfl,
    field 8 40 rfl rfl, field 10 46 rfl rfl]
  rfl

theorem storable_recordWords {place : Nat} (size : payload.length < 0x100000000)
    (inFile : place < 0x100000000) : Storable (recordWords payload place) := by
  have start : (if payload = [] then 0 else place) < Nat.pow 256 4 := by
    split
    · exact Nat.zero_lt_succ _
    · exact inFile
  intro word mem
  simp only [recordWords, List.mem_cons, List.not_mem_nil, or_false] at mem
  rcases mem with rfl | rfl | rfl | rfl | rfl | rfl | rfl | rfl | rfl | rfl | rfl
  case inr.inr.inl => exact size
  case inr.inr.inr.inl => exact start
  all_goals decide

/-- Records are read as they were written, every name from the place in the table
that the names before it leave to it. -/
theorem readHeaders_records (front rest : Bytes) {place : Nat}
    (named : ∀ s ∈ sections, s.1 ≠ "" ∧ '\x00' ∉ s.1.toList)
    (inTable : front.length + (longNames sections).length < 0x100000000)
    (inFile : place + (payloads sections).length < 0x100000000) :
    Tables.readHeaders (front ++ (longNames sections ++ rest)) sections.length
        (records front.length place sections) =
      .ok (headers place sections) := by
  induction sections generalizing front place with
  | nil => rfl
  | cons s others ih =>
    obtain ⟨name, payload⟩ := s
    obtain ⟨isNamed, plain⟩ := named (name, payload) List.mem_cons_self
    have table : front ++ (longNames ((name, payload) :: others) ++ rest) =
        front ++ (longName name ++ (longNames others ++ rest)) := by
      simp only [longNames, List.flatMap_cons, List.append_assoc]
    have after : front ++ (longName name ++ (longNames others ++ rest)) =
        (front ++ longName name) ++ (longNames others ++ rest) := by
      rw [List.append_assoc]
    simp only [longNames, payloads, List.flatMap_cons, List.length_append] at inTable inFile
    have storable : Storable (recordWords payload place) :=
      storable_recordWords (by omega) (by omega)
    have size : (nameField name front.length ++ Bytes.pack (recordWords payload place)).length =
        SectionHeader.recordSize := by
      rw [List.length_append, length_nameField, length_recordWords]
      rfl
    have inWord : front.length < Nat.pow 256 4 := by
      change front.length < 0x100000000
      omega
    -- The next name stands behind this one, so the front grows by it.
    have first := read_record front (longNames others ++ rest) isNamed plain inWord storable
    have later := ih (front ++ longName name) (fun s mem => named s (List.mem_cons_of_mem _ mem))
      (by simp only [longNames, List.length_append]; omega)
      (by simp only [payloads]; omega : place + payload.length + (payloads others).length < _)
    rw [List.length_append, ← after] at later
    rw [table, List.length_cons, Tables.readHeaders, records, ← size, List.take_left, first,
      List.drop_left, later]
    rfl

theorem headers_names_and_sizes (place : Nat) (sections : List (String × Bytes)) :
    (headers place sections).map (fun h => (h.name, h.size)) =
      sections.map fun s => (.ok s.1, s.2.length) := by
  induction sections generalizing place with
  | nil => rfl
  | cons s rest ih => rw [headers, List.map_cons, List.map_cons, ih]; rfl

/-- Every section that was written has a name. -/
theorem headers_named (place : Nat) (sections : List (String × Bytes)) :
    (headers place sections).filterMap (fun h => nameWarning h.name) = [] := by
  induction sections generalizing place with
  | nil => rfl
  | cons s rest ih => rw [headers, List.filterMap_cons]; exact ih _

/-! ## Payloads -/

/-- A payload ends before the last one does. -/
theorem endOffset_le {place : Nat} {h : SectionHeader} (mem : h ∈ headers place sections) :
    h.endOffset ≤ place + (payloads sections).length := by
  induction sections generalizing place with
  | nil => cases mem
  | cons s rest ih =>
    obtain ⟨name, payload⟩ := s
    simp only [payloads, List.flatMap_cons, List.length_append] at ih ⊢
    rcases List.mem_cons.mp mem with rfl | mem
    · simp only [SectionHeader.endOffset, header]
      split <;> omega
    · have later := ih mem
      omega

theorem hasData_header {place : Nat} (positive : 0 < place) :
    (header name payload place).hasData = decide (payload ≠ []) := by
  cases payload with
  | nil => rfl
  | cons b rest =>
    have somewhere : place ≠ 0 := by omega
    simp [SectionHeader.hasData, header, somewhere]

/-- The sections that are found in a file are those that have a payload. -/
theorem sections_of_headers (front rest : Bytes) (positive : 0 < front.length)
    (sections : List (String × Bytes)) :
    (((headers front.length sections).filter SectionHeader.hasData).map
        (Image.sectionOf (front ++ (payloads sections ++ rest)))).map (fun s => (s.name, s.data)) =
      (sections.filter fun s => s.2 ≠ []).map fun s => (some s.1, s.2) := by
  induction sections generalizing front with
  | nil => rfl
  | cons s others ih =>
    obtain ⟨name, payload⟩ := s
    have behind : 0 < (front ++ payload).length := by
      rw [List.length_append]
      omega
    have later := ih (front ++ payload) behind
    have data : front ++ (payloads ((name, payload) :: others) ++ rest) =
        (front ++ payload) ++ (payloads others ++ rest) := by
      simp only [payloads, List.flatMap_cons, List.append_assoc]
    rw [List.length_append] at later
    rw [headers, data, List.filter_cons, List.filter_cons, hasData_header positive]
    by_cases empty : payload = []
    · -- Neither side has the section, and the place of the next one is the same.
      subst empty
      simpa using later
    · have found : Image.sectionOf (front ++ payload ++ (payloads others ++ rest))
          (header name payload front.length) = ⟨some name, front.length, payload⟩ := by
        simp only [Image.sectionOf, header, empty, if_false]
        rw [List.append_assoc, List.drop_left, List.take_left]
        rfl
      simp only [empty, ne_eq, not_false_eq_true, decide_true, if_true, List.map_cons, found]
      rw [later]

/-! ## The whole file -/

namespace Contents

variable {c : Contents}

/-- The sections that have a payload. -/
def nonEmpty (c : Contents) : List (String × Bytes) :=
  c.sections.filter fun s => s.2 ≠ []

/-- The tables of the object file. -/
def tables (c : Contents) : Tables where
  header := c.fileHeader
  symbolTable := c.symbols
  stringTable := c.stringTable
  sectionHeaders := headers c.payloadPlace c.sections

theorem storable_headerWords (fits : c.Fits) : Storable (headerWords c.fileHeader) := by
  have size := fits.size
  have symbols := fits.symbols
  rw [length_bytes] at size
  simp only [FileHeader.symbolSize] at symbols
  have symbolPlace : c.fileHeader.symbolTableOffset < 0x100000000 := by
    simp only [fileHeader]
    omega
  have symbolCount : c.symbolCount < 0x100000000 := by omega
  intro word mem
  simp only [headerWords, List.mem_cons, List.not_mem_nil, or_false] at mem
  rcases mem with rfl | rfl | rfl | rfl | rfl | rfl | rfl | rfl
  · exact (by decide : 0xc2 < 0x10000)
  · exact fits.sections
  · exact (by decide : 0 < 0x100000000)
  · exact symbolPlace
  · exact symbolCount
  · exact fits.optionalHeader
  · exact (by decide : 0 < 0x10000)
  · exact fits.targetId

/-- Everything in front of the payloads. -/
def beforePayloads (c : Contents) : Bytes :=
  Bytes.pack (headerWords c.fileHeader) ++ c.optionalHeader ++
    records 4 c.payloadPlace c.sections

theorem length_beforePayloads (c : Contents) : c.beforePayloads.length = c.payloadPlace := by
  simp only [beforePayloads, List.length_append, length_headerWords, length_records, payloadPlace]

/-- The section records stand behind the optional header. -/
theorem cut_records (c : Contents) :
    cutTable c.bytes c.fileHeader.sectionTableOffset
        (c.fileHeader.sectionCount * SectionHeader.recordSize) "Section header table" =
      .ok (records 4 c.payloadPlace c.sections) := by
  have place : c.fileHeader.sectionTableOffset =
      (Bytes.pack (headerWords c.fileHeader) ++ c.optionalHeader).length := by
    rw [List.length_append, length_headerWords]
    rfl
  have length : c.fileHeader.sectionCount * SectionHeader.recordSize =
      (records 4 c.payloadPlace c.sections).length := (length_records _ _ _).symm
  rw [place, length, bytes, List.append_assoc, List.append_assoc, List.append_assoc]
  exact cutTable_append _ _ _ _

/-- The symbols stand behind the payloads, and the string table behind them. -/
theorem readSymbols_bytes (fits : c.Fits) :
    Tables.readSymbols c.bytes c.fileHeader = .ok (c.symbols, c.stringTable) := by
  have place : c.fileHeader.symbolTableOffset =
      (c.beforePayloads ++ payloads c.sections).length := by
    rw [List.length_append, length_beforePayloads]
    rfl
  have length : c.fileHeader.symbolTableSize = c.symbols.length := fits.symbols.symm
  have present : c.fileHeader.symbolTableOffset ≠ 0 := by
    simp only [fileHeader, payloadPlace, FileHeader.size]
    omega
  have symbols : cutTable c.bytes c.fileHeader.symbolTableOffset c.fileHeader.symbolTableSize
      "Symbol table" = .ok c.symbols := by
    rw [place, length, bytes, ← beforePayloads, List.append_assoc]
    exact cutTable_append _ _ _ _
  have shape : c.bytes =
      (c.beforePayloads ++ payloads c.sections ++ c.symbols) ++ (c.stringTable ++ []) := by
    rw [List.append_nil]
    rfl
  have strings : cutTable c.bytes (c.fileHeader.symbolTableOffset + c.fileHeader.symbolTableSize)
      (c.bytes.length - (c.fileHeader.symbolTableOffset + c.fileHeader.symbolTableSize))
      "String table" = .ok c.stringTable := by
    rw [place, length, ← List.length_append]
    have rest : c.bytes.length - (c.beforePayloads ++ payloads c.sections ++ c.symbols).length =
        c.stringTable.length := by
      rw [shape, List.length_append, List.append_nil]
      omega
    rw [rest, shape]
    exact cutTable_append _ _ _ _
  rw [Tables.readSymbols, if_neg present, symbols]
  change (cutTable c.bytes (c.fileHeader.symbolTableOffset + c.fileHeader.symbolTableSize)
    (c.bytes.length - (c.fileHeader.symbolTableOffset + c.fileHeader.symbolTableSize))
    "String table" >>= fun strings => Except.ok (c.symbols, strings)) = _
  rw [strings]
  rfl

/-- The tables of an object file are read as they were written. -/
theorem read_tables (fits : c.Fits) : Tables.read c.bytes = .ok c.tables := by
  have size := fits.size
  rw [length_bytes] at size
  have header : FileHeader.read c.bytes = .ok c.fileHeader := by
    simp only [bytes, List.append_assoc]
    exact read_headerWords (storable_headerWords fits) _
  have lengthWord : (Bytes.pack [(4, 4 + (longNames c.sections).length)]).length = 4 := rfl
  have inTable : (Bytes.pack [(4, 4 + (longNames c.sections).length)]).length +
      (longNames c.sections).length < 0x100000000 := by
    rw [lengthWord]
    omega
  have inFile : c.payloadPlace + (payloads c.sections).length < 0x100000000 := by omega
  have headers := readHeaders_records (Bytes.pack [(4, 4 + (longNames c.sections).length)]) []
    fits.named inTable inFile
  rw [lengthWord, List.append_nil, ← stringTable] at headers
  rw [Tables.read, header]
  change (cutTable c.bytes c.fileHeader.sectionTableOffset
    (c.fileHeader.sectionCount * SectionHeader.recordSize) "Section header table" >>= _) = _
  rw [cut_records]
  change (Tables.readSymbols c.bytes c.fileHeader >>= _) = _
  rw [readSymbols_bytes fits]
  change (Tables.readHeaders c.stringTable c.sections.length
    (records 4 c.payloadPlace c.sections) >>= _) = _
  rw [headers]
  rfl

theorem declaredLength_stringTable (fits : c.Fits) :
    declaredLength c.stringTable = some c.stringTable.length := by
  have size := fits.size
  rw [length_bytes] at size
  have storable : 4 + (longNames c.sections).length < Nat.pow 256 4 := by
    change _ < 0x100000000
    omega
  have long : ¬ c.stringTable.length < 4 := by
    rw [length_stringTable]
    omega
  have word : c.stringTable.take 4 = Bytes.ofNatLittle 4 (4 + (longNames c.sections).length) := rfl
  rw [declaredLength, if_neg long, word, Bytes.littleEndian_ofNatLittle storable,
    length_stringTable]

/-- Nothing is odd about an object file that was written. -/
theorem warnings_bytes (fits : c.Fits) : Image.warnings c.bytes = [] := by
  have length : lengthWarning c.stringTable = none := by
    rw [lengthWarning, declaredLength_stringTable fits]
    simp
  simp only [Image.warnings, read_tables fits, Tables.warnings, tables, length, headers_named,
    Option.toList_none, List.append_nil]

theorem overrun?_tables (c : Contents) : c.tables.overrun? c.bytes.length = none := by
  apply List.find?_eq_none.mpr
  intro h mem
  have inside := endOffset_le mem
  have outside : ¬ c.bytes.length < h.endOffset := by
    rw [length_bytes]
    omega
  simp [outside]

/-- The image of the object file. -/
def image (c : Contents) : Image where
  header := c.fileHeader
  sectionHeaders := headers c.payloadPlace c.sections
  sections := ((headers c.payloadPlace c.sections).filter SectionHeader.hasData).map
    (Image.sectionOf c.bytes)
  symbolTable := c.symbols
  stringTable := c.stringTable

theorem read_bytes (fits : c.Fits) : Image.read c.bytes = .ok c.image := by
  rw [Image.read, read_tables fits]
  change Image.ofTables c.bytes c.tables = _
  rw [Image.ofTables, overrun?_tables]
  rfl

theorem image_sections (c : Contents) :
    c.image.sections.map (fun s => (s.name, s.data)) = c.nonEmpty.map fun s => (some s.1, s.2) := by
  have somewhere : 0 < c.beforePayloads.length := by
    rw [length_beforePayloads, payloadPlace, FileHeader.size]
    omega
  have shape : c.bytes =
      c.beforePayloads ++ (payloads c.sections ++ (c.symbols ++ c.stringTable)) := by
    simp only [bytes, beforePayloads, List.append_assoc]
  have sections := sections_of_headers c.beforePayloads (c.symbols ++ c.stringTable) somewhere
    c.sections
  rwa [← shape, length_beforePayloads] at sections

/-- The first section of a name is the first one among those that were written. -/
theorem image_sectionData (c : Contents) (name : String) :
    c.image.sectionData name = ((c.nonEmpty.find? fun s => s.1 == name).map Prod.snd).getD [] := by
  have found : c.image.sectionData name =
      (((c.image.sections.map fun s => (s.name, s.data)).find?
        fun s => s.1 == some name).map Prod.snd).getD [] := by
    rw [List.find?_map, Option.map_map, Image.sectionData, Image.section?]
    change _ = ((c.image.sections.find? fun s => s.name == some name).map Section.data).getD []
    cases c.image.sections.find? fun s => s.name == some name with
    | none => rfl
    | some s => rfl
  rw [found, image_sections, List.find?_map, Option.map_map]
  rfl

/-- What an image holds of the contents that it is read from. -/
structure Held (c : Contents) (image : Image) : Prop where
  headers : image.sectionHeaders.map (fun h => (h.name, h.size)) =
    c.sections.map fun s => (.ok s.1, s.2.length)
  sections : image.sections.map (fun s => (s.name, s.data)) =
    c.nonEmpty.map fun s => (some s.1, s.2)
  symbolTable : image.symbolTable = c.symbols
  stringTable : image.stringTable = c.stringTable
  sectionData : ∀ name, image.sectionData name =
    ((c.nonEmpty.find? fun s => s.1 == name).map Prod.snd).getD []

/-- **Round trip.** An object file is read as what it was written from, and nothing
is found odd about it. -/
theorem read_written (fits : c.Fits) :
    ∃ image, Image.read c.bytes = .ok image ∧ Image.warnings c.bytes = [] ∧ c.Held image := by
  refine ⟨c.image, read_bytes fits, warnings_bytes fits, ?_⟩
  exact ⟨headers_names_and_sizes _ _, image_sections c, rfl, rfl, image_sectionData c⟩

/-- An object file with a name of nine bytes, one of eight, two sections of one name
and one without a payload. -/
def mixed : Contents where
  sections := [(".text", [1, 2, 3]), (".longname", [4]), (".debug_x", []), (".text", [5])]
  optionalHeader := [7, 7]
  symbols := List.replicate 18 0
  symbolCount := 1

theorem read_written_mixed : mixed.Fits ∧
    ∃ image, Image.read mixed.bytes = .ok image ∧ Image.warnings mixed.bytes = [] ∧
      mixed.Held image := by
  have fits : mixed.Fits :=
    ⟨by decide +kernel, by decide, by decide, by decide, by decide, by decide +kernel⟩
  exact ⟨fits, read_written fits⟩

end Contents

end GlobalMap.Coff
