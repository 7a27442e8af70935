import GlobalMap.MapFile.Document
import GlobalMap.Proofs.Json.RoundTrip

/-! Map files are read back as they were written, in both layouts. The object of an entry
leaves out what is unknown and an empty list of fields; looking a key up in it finds what
the entry carries, and the last key holds the entries below. What is read from any text can
be written, since nothing that an entry carries is null, no object has a key twice and no
whole number too many digits. Entries with such a number have no text. -/
namespace GlobalMap

open Json (Text lookup)

namespace MapEntry

mutual

/-- All that an entry and the entries below it carry has a property. -/
def Carries (p : Json → Prop) : MapEntry → Prop
  | ⟨name, addr, type, offset, fields⟩ =>
    (∀ value ∈ name, p value) ∧ (∀ value ∈ addr, p value) ∧ (∀ value ∈ type, p value) ∧
      (∀ value ∈ offset, p value) ∧ CarriesAll p fields

def CarriesAll (p : Json → Prop) : List MapEntry → Prop
  | [] => True
  | entry :: rest => Carries p entry ∧ CarriesAll p rest

end

/-- A value that is known and that JSON text can hold without loss: no real number, no lone
surrogate and no object with a key twice is in it. -/
structure Plain (value : Json) : Prop where
  known : value ≠ .null
  exact : value.Exact
  once : value.KeysOnce

variable {p q : Json → Prop} {value : Json} {fields more : List (Text × Json)} {key other : String}

mutual

theorem Carries.imp (weaker : ∀ value, p value → q value) :
    ∀ (entry : MapEntry), entry.Carries p → entry.Carries q
  | ⟨_, _, _, _, fields⟩, ⟨name, addr, type, offset, below⟩ =>
    ⟨fun v mem => weaker v (name v mem), fun v mem => weaker v (addr v mem),
      fun v mem => weaker v (type v mem), fun v mem => weaker v (offset v mem),
      CarriesAll.imp weaker fields below⟩

theorem CarriesAll.imp (weaker : ∀ value, p value → q value) :
    ∀ (entries : List MapEntry), CarriesAll p entries → CarriesAll q entries
  | [], _ => trivial
  | entry :: rest, ⟨first, behind⟩ =>
    ⟨Carries.imp weaker entry first, CarriesAll.imp weaker rest behind⟩

end

mutual

theorem Carries.and : ∀ (entry : MapEntry), entry.Carries p → entry.Carries q →
    entry.Carries fun value => p value ∧ q value
  | ⟨_, _, _, _, fields⟩, ⟨name, addr, type, offset, below⟩,
    ⟨name', addr', type', offset', below'⟩ =>
    ⟨fun v mem => ⟨name v mem, name' v mem⟩, fun v mem => ⟨addr v mem, addr' v mem⟩,
      fun v mem => ⟨type v mem, type' v mem⟩, fun v mem => ⟨offset v mem, offset' v mem⟩,
      CarriesAll.and fields below below'⟩

theorem CarriesAll.and : ∀ (entries : List MapEntry), CarriesAll p entries → CarriesAll q entries →
    CarriesAll (fun value => p value ∧ q value) entries
  | [], _, _ => trivial
  | entry :: rest, ⟨first, behind⟩, ⟨first', behind'⟩ =>
    ⟨Carries.and entry first first', CarriesAll.and rest behind behind'⟩

end

section Lookup

theorem ofString_inj : Text.ofString key = Text.ofString other ↔ key = other := by
  constructor
  · intro same
    have letters : key.toList = other.toList :=
      List.map_inj_right (fun _ _ h => Json.Glyph.char.inj h) |>.mp same
    exact String.toList_inj.mp letters
  · exact congrArg Text.ofString

theorem whole_ofString (s : String) : (Text.ofString s).Whole := by
  intro glyph mem
  obtain ⟨c, _, rfl⟩ := List.mem_map.mp mem
  rfl

theorem lookup_append (fields more : List (Text × Json)) (key : String) :
    lookup (fields ++ more) key = (lookup fields key).or (lookup more key) := by
  rw [lookup, List.find?_append, Option.map_or]
  rfl

theorem lookup_known (value : Option Json) :
    lookup (known key value) other = if key = other then value else none := by
  cases value with
  | none => simp [known, lookup]
  | some value =>
    by_cases same : key = other
    · simp [known, lookup, same]
    · have apart : Text.ofString key ≠ Text.ofString other := fun h => same (ofString_inj.mp h)
      simp [known, lookup, same, apart]

theorem lookup_nested (items : List Json) (apart : other ≠ "fields") :
    lookup (nested items) other = none := by
  cases items with
  | nil => rfl
  | cons item rest =>
    have keys : Text.ofString "fields" ≠ Text.ofString other :=
      fun h => apart (ofString_inj.mp h).symm
    simp [nested, lookup, keys]

/-- What an object holds under a key is one of its values. -/
theorem mem_of_lookup (found : lookup fields key = some value) :
    ∃ field ∈ fields, field.2 = value := by
  obtain ⟨field, first, rfl⟩ := Option.map_eq_some_iff.mp found
  exact ⟨field, List.mem_of_find?_eq_some first, rfl⟩

theorem valueOf_of_known (known : ∀ value ∈ lookup fields key, value ≠ .null) :
    valueOf fields key = lookup fields key := by
  unfold valueOf
  split
  · rename_i null
    exact absurd rfl (known .null null)
  · rfl

theorem valueOf_eq_some (found : valueOf fields key = some value) :
    lookup fields key = some value ∧ value ≠ .null := by
  unfold valueOf at found
  split at found
  · cases found
  · rename_i _ other
    refine ⟨found, ?_⟩
    rintro rfl
    exact other found

theorem belowOf_known (value : Option Json) (apart : key ≠ "fields") :
    belowOf (known key value ++ more) = belowOf more := by
  cases value with
  | none => rfl
  | some value =>
    have keys : Text.ofString key ≠ Text.ofString "fields" := fun h => apart (ofString_inj.mp h)
    rw [known, List.singleton_append, belowOf, if_neg keys]

theorem belowOf_nested (items : List Json) : belowOf (nested items) = listOfJson items := by
  cases items with
  | nil => rw [nested, belowOf, listOfJson]
  | cons item rest =>
    have held : nested (item :: rest) = [(Text.ofString "fields", .array (item :: rest))] := rfl
    rw [held, belowOf, if_pos rfl, elementsOf]

end Lookup

section Writing

/-- The fields of the object that an entry is written as. -/
def written (entry : MapEntry) : List (Text × Json) :=
  known "addr" entry.addr ++ known "type" entry.type ++ known "offset" entry.offset ++
    known "name" entry.name ++ nested (listToJson entry.fields)

theorem toJson_eq (entry : MapEntry) : toJson entry = .object entry.written := by
  cases entry
  rw [toJson, written]

theorem belowOf_written (entry : MapEntry) :
    belowOf entry.written = listOfJson (listToJson entry.fields) := by
  simp only [written, List.append_assoc]
  rw [belowOf_known _ (by decide), belowOf_known _ (by decide), belowOf_known _ (by decide),
    belowOf_known _ (by decide), belowOf_nested]

theorem valueOf_written {entry : MapEntry} {carried : Option Json}
    (known : ∀ value ∈ carried, value ≠ .null) (found : lookup entry.written key = carried) :
    valueOf entry.written key = carried := by
  subst found
  exact valueOf_of_known known

mutual

/-- An entry is read back from its object. -/
theorem ofJson_toJson : ∀ (entry : MapEntry), entry.Carries (· ≠ .null) →
    ofJson (toJson entry) = .ok entry
  | ⟨name, addr, type, offset, fields⟩, ⟨knownName, knownAddr, knownType, knownOffset, below⟩ => by
    let entry : MapEntry := ⟨name, addr, type, offset, fields⟩
    have foundName : lookup entry.written "name" = name := by
      simp [entry, written, lookup_append, lookup_known, lookup_nested]
    have foundAddr : lookup entry.written "addr" = addr := by
      simp [entry, written, lookup_append, lookup_known, lookup_nested]
    have foundType : lookup entry.written "type" = type := by
      simp [entry, written, lookup_append, lookup_known, lookup_nested]
    have foundOffset : lookup entry.written "offset" = offset := by
      simp [entry, written, lookup_append, lookup_known, lookup_nested]
    rw [toJson_eq, ofJson, belowOf_written, listOfJson_listToJson fields below,
      valueOf_written knownName foundName, valueOf_written knownAddr foundAddr,
      valueOf_written knownType foundType, valueOf_written knownOffset foundOffset]
    rfl

theorem listOfJson_listToJson : ∀ (entries : List MapEntry), CarriesAll (· ≠ .null) entries →
    listOfJson (listToJson entries) = .ok entries
  | [], _ => by rw [listToJson, listOfJson]
  | entry :: rest, ⟨first, behind⟩ => by
    rw [listToJson, listOfJson, ofJson_toJson entry first, listOfJson_listToJson rest behind]
    rfl

end

theorem throughout_known {key : String} {carried : Option Json}
    (inside : ∀ value ∈ carried, Json.Throughout p value) :
    ∀ field ∈ known key carried, Json.Throughout p field.2 := by
  cases carried with
  | none => simp [known]
  | some value =>
    intro field mem
    rw [List.mem_singleton.mp mem]
    exact inside value rfl

theorem throughout_nested {items : List Json} (inside : Json.Throughout p (.array items)) :
    ∀ field ∈ nested items, Json.Throughout p field.2 := by
  cases items with
  | nil => simp [nested]
  | cons item rest =>
    intro field mem
    rw [List.mem_singleton.mp mem]
    exact inside

mutual

/-- What holds of all arrays, of the objects of entries and of all that is in the values an entry
carries holds throughout the object of the entry. -/
theorem throughout_toJson (arrays : ∀ items, p (.array items))
    (objects : ∀ entry, p (toJson entry)) :
    ∀ (entry : MapEntry), entry.Carries (Json.Throughout p) → Json.Throughout p (toJson entry)
  | ⟨name, addr, type, offset, fields⟩, ⟨inName, inAddr, inType, inOffset, below⟩ => by
    have object := objects ⟨name, addr, type, offset, fields⟩
    rw [toJson_eq] at object ⊢
    apply Json.throughout_object_iff.mpr
    refine ⟨object, ?_⟩
    simp only [written, List.forall_mem_append]
    have nested := throughout_nested (throughout_listToJson arrays objects fields below)
    exact ⟨⟨⟨⟨throughout_known inAddr, throughout_known inType⟩, throughout_known inOffset⟩,
      throughout_known inName⟩, nested⟩

theorem throughout_listToJson (arrays : ∀ items, p (.array items))
    (objects : ∀ entry, p (toJson entry)) : ∀ (entries : List MapEntry),
      CarriesAll (Json.Throughout p) entries → Json.Throughout p (.array (listToJson entries))
  | [], _ => by
    rw [listToJson]
    exact ⟨arrays [], trivial⟩
  | entry :: rest, ⟨first, behind⟩ => by
    have later := throughout_listToJson arrays objects rest behind
    rw [listToJson]
    exact ⟨arrays _, throughout_toJson arrays objects entry first, later.2⟩

end

theorem of_throughout_known {key : String} {carried : Option Json}
    (inside : ∀ field ∈ known key carried, Json.Throughout p field.2) :
    ∀ value ∈ carried, Json.Throughout p value := by
  rintro value rfl
  exact inside _ List.mem_cons_self

mutual

/-- What holds throughout the object of an entry holds of all that the entry carries. -/
theorem carries_of_toJson :
    ∀ (entry : MapEntry), Json.Throughout p (toJson entry) → entry.Carries (Json.Throughout p)
  | ⟨name, addr, type, offset, fields⟩, inside => by
    rw [toJson_eq] at inside
    have each := (Json.throughout_object_iff.mp inside).2
    simp only [written, List.forall_mem_append] at each
    obtain ⟨⟨⟨⟨inAddr, inType⟩, inOffset⟩, inName⟩, inFields⟩ := each
    refine ⟨of_throughout_known inName, of_throughout_known inAddr, of_throughout_known inType,
      of_throughout_known inOffset, carriesAll_of_listToJson fields ?_⟩
    cases below : listToJson fields with
    | nil => trivial
    | cons item rest =>
      rw [below] at inFields
      exact (inFields _ List.mem_cons_self).2

theorem carriesAll_of_listToJson : ∀ (entries : List MapEntry),
    Json.ThroughoutItems p (listToJson entries) → CarriesAll (Json.Throughout p) entries
  | [], _ => trivial
  | entry :: rest, inside => by
    rw [listToJson] at inside
    exact ⟨carries_of_toJson entry inside.1, carriesAll_of_listToJson rest inside.2⟩

end

theorem keys_known (key : String) (carried : Option Json) :
    ((known key carried).map Prod.fst).Sublist [Text.ofString key] := by
  cases carried with
  | none => exact List.nil_sublist _
  | some value => exact List.Sublist.refl _

theorem keys_nested (items : List Json) :
    ((nested items).map Prod.fst).Sublist [Text.ofString "fields"] := by
  cases items with
  | nil => exact List.nil_sublist _
  | cons item rest => exact List.Sublist.refl _

/-- The keys of an entry come from a fixed list, in its order. -/
theorem keys_written (entry : MapEntry) : (entry.written.map Prod.fst).Sublist
    (["addr", "type", "offset", "name", "fields"].map Text.ofString) := by
  simp only [written, List.map_append]
  exact ((((keys_known _ _).append (keys_known _ _)).append (keys_known _ _)).append
    (keys_known _ _)).append (keys_nested _)

theorem spelled_toJson (entry : MapEntry) : (toJson entry).Spelled := by
  rw [toJson_eq]
  intro field mem
  obtain ⟨key, _, same⟩ := List.mem_map.mp ((keys_written entry).subset (List.mem_map_of_mem mem))
  rw [← same]
  exact whole_ofString key

theorem keysDistinct_toJson (entry : MapEntry) : (toJson entry).KeysDistinct := by
  rw [toJson_eq]
  refine (keys_written entry).nodup ?_
  decide

end Writing

section Reading

theorem known_of_lookup {carried : Option Json} (found : valueOf fields key = carried)
    (inside : Json.ThroughoutFields p fields) :
    ∀ value ∈ carried, value ≠ .null ∧ Json.Throughout p value := by
  rintro value rfl
  obtain ⟨held, known⟩ := valueOf_eq_some found
  obtain ⟨field, mem, rfl⟩ := mem_of_lookup held
  exact ⟨known, Json.throughoutFields_iff.mp inside field mem⟩

mutual

/-- What an entry carries that has been read from a value is known, and what holds throughout the
value holds throughout that. -/
theorem carries_ofJson : ∀ (v : Json) {entry : MapEntry}, ofJson v = .ok entry →
    Json.Throughout p v → entry.Carries fun value => value ≠ .null ∧ Json.Throughout p value
  | .object fields, entry, read, inside => by
    rw [ofJson] at read
    cases below : belowOf fields with
    | error fault => rw [below] at read; cases read
    | ok entries =>
      rw [below] at read
      cases read
      exact ⟨known_of_lookup rfl inside.2, known_of_lookup rfl inside.2,
        known_of_lookup rfl inside.2, known_of_lookup rfl inside.2,
        carriesAll_belowOf fields below inside.2⟩
  | .null, _, read, _ => by cases read
  | .bool _, _, read, _ => by cases read
  | .int _, _, read, _ => by cases read
  | .real _, _, read, _ => by cases read
  | .string _, _, read, _ => by cases read
  | .array _, _, read, _ => by cases read

theorem carriesAll_belowOf : ∀ (fields : List (Text × Json)) {entries : List MapEntry},
    belowOf fields = .ok entries → Json.ThroughoutFields p fields →
    CarriesAll (fun value => value ≠ .null ∧ Json.Throughout p value) entries
  | [], _, read, _ => by
    cases read
    trivial
  | (key, value) :: rest, _, read, inside => by
    rw [belowOf] at read
    split at read
    · exact carriesAll_elementsOf value read inside.1
    · exact carriesAll_belowOf rest read inside.2

theorem carriesAll_elementsOf : ∀ (v : Json) {entries : List MapEntry},
    elementsOf v = .ok entries → Json.Throughout p v →
    CarriesAll (fun value => value ≠ .null ∧ Json.Throughout p value) entries
  | .array items, _, read, inside => by
    rw [elementsOf] at read
    exact carriesAll_listOfJson items read inside.2
  | .string [], _, read, _ => by
    cases read
    trivial
  | .string (_ :: _), _, read, _ => by cases read
  | .object [], _, read, _ => by
    cases read
    trivial
  | .object (_ :: _), _, read, _ => by cases read
  | .null, _, read, _ => by cases read
  | .bool _, _, read, _ => by cases read
  | .int _, _, read, _ => by cases read
  | .real _, _, read, _ => by cases read

theorem carriesAll_listOfJson : ∀ (items : List Json) {entries : List MapEntry},
    listOfJson items = .ok entries → Json.ThroughoutItems p items →
    CarriesAll (fun value => value ≠ .null ∧ Json.Throughout p value) entries
  | [], _, read, _ => by
    cases read
    trivial
  | item :: rest, entries, read, inside => by
    rw [listOfJson] at read
    cases first : ofJson item with
    | error fault => rw [first] at read; cases read
    | ok entry =>
      cases behind : listOfJson rest with
      | error fault => rw [first, behind] at read; cases read
      | ok later =>
        rw [first, behind] at read
        cases read
        exact ⟨carries_ofJson item first inside.1, carriesAll_listOfJson rest behind inside.2⟩

end

end Reading

end MapEntry

namespace MapFile

open MapEntry (CarriesAll Plain)

variable {text : String} {entries : List MapEntry} {pretty : Bool}

/-- Entries that are read are those of the array that the text holds. -/
theorem read_eq_ok_iff : read text = .ok entries ↔
    ∃ items, Json.parse text = .ok (.array items) ∧ MapEntry.listOfJson items = .ok entries := by
  constructor
  · intro accepted
    unfold read at accepted
    split at accepted
    · cases accepted
    · rename_i items parsed
      refine ⟨items, parsed, ?_⟩
      cases listed : MapEntry.listOfJson items with
      | error fault => rw [listed] at accepted; cases accepted
      | ok found =>
        rw [listed] at accepted
        cases accepted
        rfl
    · cases accepted
  · rintro ⟨items, parsed, listed⟩
    rw [read, parsed]
    simp only [listed]
    rfl

/-- Entries have no text if and only if they carry a whole number with too many digits. -/
theorem print_eq_error_iff {number : Number.Overlong} : print entries pretty = .error number ↔
    ¬CarriesAll Json.Writable entries ∧ number = {} := by
  have written : (Json.array (MapEntry.listToJson entries)).hasOverlong = false ↔
      CarriesAll Json.Writable entries :=
    (Json.hasOverlong_eq_false_iff _).trans
      ⟨fun inside => MapEntry.carriesAll_of_listToJson entries inside.2,
        MapEntry.throughout_listToJson (fun _ => trivial)
          (fun entry => MapEntry.toJson_eq entry ▸ trivial) entries⟩
  rw [← written, Bool.not_eq_false, print, Json.print]
  cases (Json.array (MapEntry.listToJson entries)).hasOverlong with
  | false => simp
  | true => simp [eq_comm]

theorem read_print_of_plain (plain : CarriesAll Plain entries)
    (writable : CarriesAll Json.Writable entries) (pretty : Bool) :
    ∃ text, print entries pretty = .ok text ∧ read text = .ok entries := by
  have known : CarriesAll (· ≠ .null) entries := CarriesAll.imp (fun _ h => h.known) _ plain
  have exact : (Json.array (MapEntry.listToJson entries)).Exact :=
    MapEntry.throughout_listToJson (fun _ => trivial) MapEntry.spelled_toJson entries
      (CarriesAll.imp (fun _ h => h.exact) _ plain)
  have once : (Json.array (MapEntry.listToJson entries)).KeysOnce :=
    MapEntry.throughout_listToJson (fun _ => trivial) MapEntry.keysDistinct_toJson entries
      (CarriesAll.imp (fun _ h => h.once) _ plain)
  have short : (Json.array (MapEntry.listToJson entries)).Writable :=
    MapEntry.throughout_listToJson (fun _ => trivial)
      (fun entry => MapEntry.toJson_eq entry ▸ trivial) entries writable
  obtain ⟨text, printed, parsed⟩ := Json.parse_print exact ⟨once, short⟩ (layoutFor pretty)
  exact ⟨text, printed,
    read_eq_ok_iff.mpr ⟨_, parsed, MapEntry.listOfJson_listToJson entries known⟩⟩

/-- What is read can be written. -/
theorem writable_of_read (accepted : read text = .ok entries) :
    CarriesAll Json.Writable entries := by
  obtain ⟨items, parsed, listed⟩ := read_eq_ok_iff.mp accepted
  have inside := (Json.regular_of_parse parsed).writable
  exact CarriesAll.imp (fun _ h => h.2) _ (MapEntry.carriesAll_listOfJson items listed inside.2)

theorem plain_of_read (accepted : read text = .ok entries)
    (exact : ∀ document, Json.parse text = .ok document → document.Exact) :
    CarriesAll Plain entries := by
  obtain ⟨items, parsed, listed⟩ := read_eq_ok_iff.mp accepted
  have spelled := MapEntry.carriesAll_listOfJson items listed (exact _ parsed).2
  have once := MapEntry.carriesAll_listOfJson items listed (Json.regular_of_parse parsed).once.2
  exact CarriesAll.imp (fun _ h => ⟨h.1.1, h.1.2, h.2.2⟩) _ (CarriesAll.and _ spelled once)

/-- **A map file is read back as it was written**, in both layouts: any entries whose values
are plain and hold no whole number with too many digits, and so the entries of any file that is
accepted and holds no real number and no lone surrogate. Entries with such a number are not written,
in either layout. -/
theorem read_print :
    (∀ (entries : List MapEntry), CarriesAll Plain entries → CarriesAll Json.Writable entries →
      ∀ pretty, ∃ text, print entries pretty = .ok text ∧ read text = .ok entries) ∧
    (∀ (entries : List MapEntry), ¬CarriesAll Json.Writable entries →
      ∀ pretty, print entries pretty = .error {}) ∧
    (∀ (text : String) (entries : List MapEntry), read text = .ok entries →
      (∀ document, Json.parse text = .ok document → document.Exact) →
      ∀ pretty, ∃ again, print entries pretty = .ok again ∧ read again = .ok entries) := by
  refine ⟨fun entries plain writable pretty => read_print_of_plain plain writable pretty, ?_, ?_⟩
  · intro entries unwritable pretty
    exact print_eq_error_iff.mpr ⟨unwritable, rfl⟩
  · intro text entries accepted exact pretty
    exact read_print_of_plain (plain_of_read accepted exact) (writable_of_read accepted) pretty

/-- A file in which a key comes twice, with a character above the first plane, a number
beyond 64 bits and members that are null. -/
def crowdedText : String :=
  "[\x7b\"name\": \"\\ud83d\\ude00\", \"addr\": 1, \"addr\": -36893488147419103232, " ++
    "\"type\": null, \"fields\": [\x7b\"offset\": \x7b\"a\": [true, \"\\u0007\"]\x7d\x7d]\x7d]"

/-- The items of that file. -/
def crowdedItems : List Json :=
  [.object [(Text.ofString "name", Json.text "😀"),
    (Text.ofString "addr", .int (-36893488147419103232)), (Text.ofString "type", .null),
    (Text.ofString "fields", .array [.object [(Text.ofString "offset",
      .object [(Text.ofString "a", .array [.bool true, Json.text "\x07"])])]])]]

/-- The entries of that file. -/
def crowdedEntries : List MapEntry := [{
  name := some (Json.text "😀")
  addr := some (.int (-36893488147419103232))
  fields := [{
    offset := some (.object [(Text.ofString "a", .array [.bool true, Json.text "\x07"])]) }] }]

theorem parse_crowdedText : Json.parse crowdedText = .ok (.array crowdedItems) := by
  have same : (Json.parse crowdedText).toOption.any (·.same (.array crowdedItems)) = true := by
    decide +kernel
  cases parsed : Json.parse crowdedText with
  | error fault => rw [parsed] at same; cases same
  | ok document =>
    rw [parsed] at same
    rw [Json.eq_of_same same]

theorem read_crowdedText : read crowdedText = .ok crowdedEntries := by
  refine read_eq_ok_iff.mpr ⟨crowdedItems, parse_crowdedText, ?_⟩
  simp [crowdedItems, crowdedEntries, MapEntry.listOfJson, MapEntry.ofJson, MapEntry.belowOf,
    MapEntry.elementsOf, MapEntry.valueOf, lookup, MapEntry.ofString_inj]
  rfl

theorem exact_crowdedText (document : Json) (parsed : Json.parse crowdedText = .ok document) :
    document.Exact := by
  rw [parse_crowdedText] at parsed
  cases parsed
  simp [Json.Exact, crowdedItems, Json.Throughout, Json.ThroughoutItems, Json.ThroughoutFields,
    Json.Spelled, MapEntry.whole_ofString, Json.text]

/-- An entry at the first number that has too many digits. -/
def farEntries : List MapEntry := [{ addr := some (.int (Number.firstBeyond Number.maxDigits)) }]

theorem not_writable_far : ¬CarriesAll Json.Writable farEntries := by
  rintro ⟨⟨_, addr, _⟩, _⟩
  have short : Number.isOverlong (Number.firstBeyond Number.maxDigits) = false := addr _ rfl
  rw [Number.isOverlong, Int.natAbs_natCast, decide_eq_false_iff_not] at short
  exact short (Nat.le_refl _)

theorem print_farEntries (pretty : Bool) : print farEntries pretty = .error {} :=
  print_eq_error_iff.mpr ⟨not_writable_far, rfl⟩

theorem read_print_crowded :
    (CarriesAll Plain crowdedEntries ∧ CarriesAll Json.Writable crowdedEntries ∧
      ∃ text, print crowdedEntries true = .ok text ∧ read text = .ok crowdedEntries) ∧
    (¬CarriesAll Json.Writable farEntries ∧ print farEntries true = .error {}) ∧
    (read crowdedText = .ok crowdedEntries ∧
      (∀ document, Json.parse crowdedText = .ok document → document.Exact) ∧
      ∃ text, print crowdedEntries false = .ok text ∧ read text = .ok crowdedEntries) :=
  have plain := plain_of_read read_crowdedText exact_crowdedText
  have writable := writable_of_read read_crowdedText
  ⟨⟨plain, writable, read_print.1 crowdedEntries plain writable true⟩,
    ⟨not_writable_far, read_print.2.1 farEntries not_writable_far true⟩,
    read_crowdedText, exact_crowdedText,
    read_print.2.2 crowdedText crowdedEntries read_crowdedText exact_crowdedText false⟩

/-- Plain entries that are not written, and so not read back. -/
theorem print_far_ne_ok : CarriesAll Plain farEntries ∧
    ∀ pretty text, print farEntries pretty ≠ .ok text := by
  refine ⟨⟨⟨nofun, ?_, nofun, nofun, trivial⟩, trivial⟩, fun pretty text printed => ?_⟩
  · intro value held
    cases held
    exact ⟨nofun, trivial, trivial⟩
  · cases printed.symm.trans (print_farEntries pretty)

end MapFile

end GlobalMap
