import GlobalMap.Proofs.Coff.Layout
import GlobalMap.Proofs.Coff.Names

/-! What bytes behind the end of an object file do to it. All that the words of a file speak of lies
inside the file and stays where it is, so the bytes behind it show in the string table alone, which
runs to the end. No name changes if every reference finds the end of its name in the old table. -/
namespace GlobalMap.Coff

variable {data pad bytes field table : Bytes} {image : Image} {start width : Nat}

/-- A field gives the same name however the table goes on: the name stands in the field, or there is
a zero byte in the table at the place that the field refers to or behind it. -/
def Terminated (field table : Bytes) : Prop :=
  field[0]? ≠ some 0 ∨ ∃ stop, wordAt field 4 4 ≤ stop ∧ table[stop]? = some 0

/-- An image is another one with bytes behind its string table, if it has one. -/
structure Extends (image : Image) (pad : Bytes) (padded : Image) : Prop where
  header : padded.header = image.header
  sectionHeaders : padded.sectionHeaders = image.sectionHeaders
  sections : padded.sections = image.sections
  lookedUp : ∀ name, padded.section? name = image.section? name
  sectionData : ∀ name, padded.sectionData name = image.sectionData name
  symbolTable : padded.symbolTable = image.symbolTable
  stringTable : padded.stringTable =
    if image.header.symbolTableOffset = 0 then [] else image.stringTable ++ pad

/-! ## Reading and bounds -/

theorem read_of_bounded (bounded : Bounded data) : Image.read data = .ok (imageOf data) := by
  have inside := (overrun?_eq_none_iff
    ⟨.spelled data, symbolsOf data, stringsOf data, headersOf data⟩ data.length).mpr
      fun h mem place size => by
        obtain ⟨index, declared, rfl⟩ := mem_headersOf.mp mem
        exact bounded.payloads index declared place size
  rw [Image.read, Tables.read_of_le bounded.header bounded.records bounded.symbols]
  change Image.ofTables data _ = _
  rw [Image.ofTables, inside]
  rfl

theorem bounded_of_read (accepted : Image.read data = .ok image) : Bounded data := by
  by_cases tables : 22 ≤ data.length ∧ recordPlace data (wordAt data 2 2) ≤ data.length ∧
      (wordAt data 4 8 = 0 ∨ wordAt data 4 8 + wordAt data 4 12 * 18 ≤ data.length)
  · obtain ⟨header, records, symbols⟩ := tables
    rw [Image.read, Tables.read_of_le header records symbols] at accepted
    change Image.ofTables data _ = _ at accepted
    rw [Image.ofTables] at accepted
    split at accepted
    · cases accepted
    · rename_i inside
      refine ⟨header, records, symbols, fun index declared place size => ?_⟩
      exact (overrun?_eq_none_iff _ _).mp inside _
        (mem_headersOf.mpr ⟨index, declared, rfl⟩) place size
  · obtain ⟨fault, refused⟩ := Tables.read_of_lt tables
    rw [Image.read, refused] at accepted
    cases accepted

/-! ## Words and names -/

/-- A range inside a file is not moved by bytes behind the file. -/
theorem take_drop_append (inside : start + width ≤ data.length) (pad : Bytes) :
    ((data ++ pad).drop start).take width = (data.drop start).take width := by
  have long : width ≤ (data.drop start).length := by
    rw [List.length_drop]
    omega
  rw [List.drop_append_of_le_length (by omega), List.take_append_of_le_length long]

theorem wordAt_append (inside : start + width ≤ data.length) :
    wordAt (data ++ pad) width start = wordAt data width start := by
  rw [wordAt, wordAt, take_drop_append inside]

theorem fileHeader_append (long : 22 ≤ data.length) :
    FileHeader.spelled (data ++ pad) = .spelled data := by
  have word (width start : Nat) (inside : start + width ≤ 22) :
      wordAt (data ++ pad) width start = wordAt data width start := wordAt_append (by omega)
  rw [FileHeader.spelled, word 2 0 (by omega), word 2 2 (by omega), word 4 4 (by omega),
    word 4 8 (by omega), word 4 12 (by omega), word 2 16 (by omega), word 2 18 (by omega),
    word 2 20 (by omega)]
  rfl

theorem recordPlace_append (long : 22 ≤ data.length) (index : Nat) :
    recordPlace (data ++ pad) index = recordPlace data index := by
  rw [recordPlace, recordPlace, wordAt_append (by omega)]

/-- A record inside the file says the same, but for its name, which may change with the table. -/
theorem sectionHeader_append (inside : start + 48 ≤ data.length) {strings : Bytes}
    (name : resolveName ((data.drop start).take 8) strings =
      resolveName ((data.drop start).take 8) table) :
    SectionHeader.spelled (data ++ pad) strings start = .spelled data table start := by
  have word (width offset : Nat) (fits : offset + width ≤ 48) :
      wordAt (data ++ pad) width (start + offset) = wordAt data width (start + offset) :=
    wordAt_append (by omega)
  rw [SectionHeader.spelled, take_drop_append (by omega), name, word 4 8 (by omega),
    word 4 12 (by omega), word 4 16 (by omega), word 4 20 (by omega), word 4 24 (by omega),
    word 4 32 (by omega), word 4 36 (by omega), word 4 40 (by omega), word 2 46 (by omega)]
  rfl

theorem untilZero_append_of_mem (ends : 0 ∈ bytes) (more : Bytes) :
    untilZero (bytes ++ more) = untilZero bytes := by
  obtain ⟨plain, same | ⟨rest, shape⟩⟩ := untilZero_eq_iff.mp (rfl : untilZero bytes = _)
  · exact absurd (same ▸ ends) plain
  · refine untilZero_eq_iff.mpr ⟨plain, .inr ⟨rest ++ more, ?_⟩⟩
    exact (congrArg (· ++ more) shape).trans (List.append_assoc _ _ _)

theorem resolveName_append (terminated : Terminated field table) (pad : Bytes) :
    resolveName field (table ++ pad) = resolveName field table := by
  by_cases size : field.length = 8
  · by_cases first : field[0]? = some 0
    · obtain ⟨stop, behind, zero⟩ := terminated.resolve_left fun own => own first
      have inside : stop < table.length := (List.getElem?_eq_some_iff.mp zero).1
      have ends : 0 ∈ table.drop (wordAt field 4 4) := by
        refine List.mem_of_getElem? (i := stop - wordAt field 4 4) ?_
        rwa [List.getElem?_drop, Nat.add_sub_cancel' behind]
      have inPadded : ¬ (table ++ pad).length ≤ wordAt field 4 4 := by
        rw [List.length_append]
        omega
      rw [resolveName_of_referred size first, resolveName_of_referred size first, if_neg inPadded,
        if_neg (by omega), List.drop_append_of_le_length (by omega),
        untilZero_append_of_mem ends pad]
    · rw [resolveName_of_own size first, resolveName_of_own size first]
  · rw [resolveName_of_size size, resolveName_of_size size]

/-! ## Tables -/

section Bounds

variable (bounded : Bounded data)

include bounded

theorem record_inside {index : Nat} (declared : index < wordAt data 2 2) :
    recordPlace data index + 48 ≤ data.length := by
  have records := bounded.records
  rw [recordPlace] at records ⊢
  omega

/-- The words that a file with bytes behind it is read by are its own. -/
theorem words_append (pad : Bytes) : wordAt (data ++ pad) 2 2 = wordAt data 2 2 ∧
    wordAt (data ++ pad) 4 8 = wordAt data 4 8 ∧ wordAt (data ++ pad) 4 12 = wordAt data 4 12 := by
  have header := bounded.header
  exact ⟨wordAt_append (by omega), wordAt_append (by omega), wordAt_append (by omega)⟩

theorem bounded_append (pad : Bytes) : Bounded (data ++ pad) := by
  have header := bounded.header
  obtain ⟨count, place, symbols⟩ := words_append bounded pad
  have longer : data.length ≤ (data ++ pad).length := by
    rw [List.length_append]
    omega
  refine ⟨header.trans longer, ?_, ?_, ?_⟩
  · rw [count, recordPlace_append header]
    exact bounded.records.trans longer
  · rw [place, symbols]
    exact bounded.symbols.imp_right fun fits => fits.trans longer
  · rw [count]
    intro index declared
    have inside := record_inside bounded declared
    rw [recordPlace_append header, wordAt_append (by omega), wordAt_append (by omega)]
    exact fun start size => (bounded.payloads index declared start size).trans longer

theorem symbolsOf_append (pad : Bytes) : symbolsOf (data ++ pad) = symbolsOf data := by
  obtain ⟨-, place, symbols⟩ := words_append bounded pad
  rw [symbolsOf, symbolsOf, place, symbols]
  split
  · rfl
  · rename_i present
    exact take_drop_append (bounded.symbols.resolve_left present) pad

/-- The bytes behind a file stand behind its strings, if it has any. -/
theorem stringsOf_append (pad : Bytes) :
    stringsOf (data ++ pad) = if wordAt data 4 8 = 0 then [] else stringsOf data ++ pad := by
  obtain ⟨-, place, symbols⟩ := words_append bounded pad
  rw [stringsOf, stringsOf, place, symbols]
  by_cases stripped : wordAt data 4 8 = 0
  · rw [if_pos stripped, if_pos stripped]
  · have fits := bounded.symbols.resolve_left stripped
    rw [if_neg stripped, if_neg stripped, if_neg stripped, List.drop_append_of_le_length fits]

/-- A payload stays where it is. -/
theorem sectionOf_append {h : SectionHeader} (mem : h ∈ headersOf data) (held : h.hasData = true)
    (pad : Bytes) : Image.sectionOf (data ++ pad) h = Image.sectionOf data h := by
  have fits : h.dataOffset + h.size ≤ data.length := by
    obtain ⟨index, declared, rfl⟩ := mem_headersOf.mp mem
    rw [hasData_iff, decide_eq_true_iff] at held
    exact bounded.payloads index declared held.1 held.2
  rw [Image.sectionOf, Image.sectionOf, take_drop_append fits]

section Named

variable (terminated : wordAt data 4 8 = 0 ∨ ∀ index < wordAt data 2 2,
  Terminated ((data.drop (recordPlace data index)).take 8) (stringsOf data))

include terminated

theorem headersOf_append (pad : Bytes) : headersOf (data ++ pad) = headersOf data := by
  obtain ⟨count, -, -⟩ := words_append bounded pad
  rw [headersOf, headersOf, count]
  refine List.map_congr_left fun index mem => ?_
  have declared := List.mem_range.mp mem
  rw [recordPlace_append bounded.header, stringsOf_append bounded]
  refine sectionHeader_append (record_inside bounded declared) ?_
  by_cases stripped : wordAt data 4 8 = 0
  · rw [if_pos stripped, stringsOf, if_pos stripped]
  · rw [if_neg stripped]
    exact resolveName_append (terminated.resolve_left stripped index declared) pad

theorem imageOf_append (pad : Bytes) : imageOf (data ++ pad) = { imageOf data with
    stringTable := if wordAt data 4 8 = 0 then [] else stringsOf data ++ pad } := by
  have headers := headersOf_append bounded terminated pad
  have sections : ((headersOf data).filter SectionHeader.hasData).map
      (Image.sectionOf (data ++ pad)) =
        ((headersOf data).filter SectionHeader.hasData).map (Image.sectionOf data) := by
    refine List.map_congr_left fun h mem => ?_
    obtain ⟨mem, held⟩ := List.mem_filter.mp mem
    exact sectionOf_append bounded mem held pad
  rw [imageOf, fileHeader_append bounded.header, headers, sections, symbolsOf_append bounded,
    stringsOf_append bounded]
  rfl

end Named

end Bounds

/-- **Bytes behind the end of an object file show in its string table alone.** A file that is read
is read with any bytes behind it too, if it is stripped or each of its records has its name in its
field or refers to a name that ends in the string table. All its headers, names, sections and
symbols are the same, and the bytes stand behind its strings if it has a string table. -/
theorem read_append_padding (accepted : Image.read data = .ok image)
    (terminated : image.header.symbolTableOffset = 0 ∨ ∀ index < image.sectionCount,
      Terminated ((data.drop (recordPlace data index)).take 8) image.stringTable) (pad : Bytes) :
    ∃ padded, Image.read (data ++ pad) = .ok padded ∧ Extends image pad padded := by
  have bounded := bounded_of_read accepted
  rw [read_of_bounded bounded] at accepted
  cases accepted
  refine ⟨_, (read_of_bounded (bounded_append bounded pad)).trans
    (congrArg Except.ok (imageOf_append bounded terminated pad)), ?_⟩
  exact ⟨rfl, rfl, rfl, fun _ => rfl, fun _ => rfl, rfl, rfl⟩

/-- A file with a section whose name stands in the string table. -/
def longNamed : Bytes :=
  ({ sections := [(".longname", [7])] } : Contents).bytes

theorem read_append_padding_longNamed : Image.read longNamed = .ok (imageOf longNamed) ∧
    (∀ index < (imageOf longNamed).sectionCount,
      Terminated ((longNamed.drop (recordPlace longNamed index)).take 8)
        (imageOf longNamed).stringTable) ∧
    ∃ padded, Image.read (longNamed ++ [0x61, 0]) = .ok padded ∧
      Extends (imageOf longNamed) [0x61, 0] padded := by
  have bounded : Bounded longNamed :=
    ⟨by decide +kernel, by decide +kernel, by decide +kernel, by decide +kernel⟩
  have one : (imageOf longNamed).sectionCount = 1 := by decide +kernel
  have terminated (index : Nat) (declared : index < (imageOf longNamed).sectionCount) :
      Terminated ((longNamed.drop (recordPlace longNamed index)).take 8)
        (imageOf longNamed).stringTable := by
    rw [one, Nat.lt_one_iff] at declared
    rw [declared]
    exact .inr ⟨13, by decide +kernel, by decide +kernel⟩
  have accepted := read_of_bounded bounded
  exact ⟨accepted, terminated, read_append_padding accepted (.inr terminated) [0x61, 0]⟩

end GlobalMap.Coff
