import GlobalMap.MapFile.Document
import GlobalMap.Proofs.Json.Spacing
import GlobalMap.Proofs.MapFile.Atomic

/-! The two layouts of a map file. They differ in spaces and line feeds outside strings and in
nothing else, and the text is plain ASCII in both, so that it takes as many bytes as it has
characters. -/
namespace GlobalMap

/-! ## Bytes and characters -/

theorem length_toList_loop (bytes : ByteArray) (index : Nat) (front : List UInt8) :
    (ByteArray.toList.loop bytes index front).length = front.length + (bytes.size - index) := by
  induction index, front using ByteArray.toList.loop.induct bytes with
  | case1 index front before ih =>
    rw [ByteArray.toList.loop, if_pos before, ih, List.length_cons]
    omega
  | case2 index front after =>
    rw [ByteArray.toList.loop, if_neg after, List.length_reverse]
    omega

theorem length_flatMap_utf8EncodeChar {letters : List Char} (ascii : ∀ c ∈ letters, c ≤ '~') :
    (letters.flatMap String.utf8EncodeChar).length = letters.length := by
  induction letters with
  | nil => rfl
  | cons c rest ih =>
    have single : c.utf8Size = 1 :=
      Char.utf8Size_eq_one_iff.mpr (UInt32.le_trans (ascii c (.head _)) (by decide))
    rw [List.flatMap_cons, List.length_append, String.length_utf8EncodeChar, single,
      ih fun d mem => ascii d (.tail _ mem), List.length_cons, Nat.add_comm]

namespace MapFile

open Json

variable {m : Machine} {entries : List MapEntry} {pretty : Bool} {path : Path}
  {text : String}

/-- A text in ASCII has one byte for each character. -/
theorem length_encoded {text : String} (ascii : ∀ c ∈ text.toList, c ≤ '~') :
    (encoded text).length = text.length := by
  rw [encoded, ByteArray.toList, length_toList_loop, List.length_nil, Nat.zero_add, Nat.sub_zero,
    String.toUTF8_eq_toByteArray, ← String.utf8Encode_toList, List.utf8Encode,
    List.size_toByteArray, length_flatMap_utf8EncodeChar ascii, String.length_toList]

/-! ## Characters of a map -/

theorem layoutFor_eq_indented : layoutFor pretty = .indented ↔ pretty = true := by
  cases pretty with
  | false => exact ⟨fun same => (by cases same), fun same => (by cases same)⟩
  | true => exact ⟨fun _ => rfl, fun _ => rfl⟩

theorem printable_print (printed : print entries pretty = .ok text) :
    ∀ c ∈ text.toList, (' ' ≤ c ∧ c ≤ '~') ∨ (pretty = true ∧ c = '\n') := by
  intro c mem
  rcases Json.allows_print printed c mem with printable | ⟨indented, feed⟩
  · exact .inl printable
  · exact .inr ⟨layoutFor_eq_indented.mp indented, feed⟩

theorem length_encoded_print (printed : print entries pretty = .ok text) :
    (encoded text).length = text.length := by
  refine length_encoded fun c mem => ?_
  rcases printable_print printed c mem with ⟨_, last⟩ | ⟨_, rfl⟩
  · exact last
  · decide

/-- What writing returns, if it returns, is the number of bytes of the text. -/
theorem size_of_write {size : Nat} {after : Machine}
    (written : (write entries path pretty : OnMachine _) m = (.ok size, after)) :
    ∃ text, print entries pretty = .ok text ∧ size = (encoded text).length := by
  cases printed : print entries pretty with
  | error number =>
    obtain ⟨_, failed⟩ := run_write_overlong path m printed
    cases written.symm.trans failed
  | ok text =>
    refine ⟨text, rfl, ?_⟩
    cases replaced : (replaceContents path (encoded text) : OnMachine _)
        (m.emitAll [writingStarts]) with
    | mk outcome between =>
      obtain ⟨records, ended⟩ := run_write printed replaced
      cases outcome with
      | error refusal => cases written.symm.trans ended
      | ok _ =>
        cases written.symm.trans ended
        rfl

/-- **The two layouts of a map differ in insignificant space only.** The text is ASCII, so that what
writing returns is the number of its characters; without the spaces and line feeds outside its
strings the indented text is the compact one, which has none of these. Entries that have no text in
one layout have none in the other. -/
theorem print_spacing (entries : List MapEntry) :
    (∀ pretty text, print entries pretty = .ok text → ∀ c ∈ text.toList,
      (' ' ≤ c ∧ c ≤ '~') ∨ (pretty = true ∧ c = '\n')) ∧
    (∀ (pretty : Bool) (path : Path) (m : Machine) (size : Nat) (after : Machine),
      (write entries path pretty : OnMachine _) m = (.ok size, after) →
        ∃ text, print entries pretty = .ok text ∧ size = text.length) ∧
    (print entries true).map (fun text => unspaced .outside text.toList) =
      (print entries false).map String.toList ∧
    ∀ (text : String) (front : List Char) (c : Char) (back : List Char),
      print entries false = .ok text → text.toList = front ++ c :: back →
      front.foldl Place.behind .outside = .outside → c ≠ ' ' ∧ c ≠ '\n' := by
  refine ⟨fun pretty text printed => printable_print printed, ?_, Json.unspaced_print _ _, ?_⟩
  · intro pretty path m size after written
    obtain ⟨text, printed, counts⟩ := size_of_write written
    exact ⟨text, printed, counts.trans (length_encoded_print printed)⟩
  · intro text front c back printed split outside
    have itself := Json.unspaced_render .compact (.array (MapEntry.listToJson entries))
    have letters : text.toList = render .compact 0 (.array (MapEntry.listToJson entries)) :=
      Json.toList_of_print printed
    rw [← letters] at itself
    exact not_spaced_of_unspaced_eq itself split outside

/-- Two entries, one inside the other, with names that hold what ends a string and what stands
between values. -/
def quoted : List MapEntry := [{
  name := some (Json.text "a \" \\ b\n")
  addr := some (.int 8)
  fields := [{ name := some (Json.text "ü, x") }] }]

/-- The compact text of these entries. -/
def quotedText : String :=
  "[\x7b\"addr\":8,\"name\":\"a \\\" \\\\ b\\n\",\"fields\":[\x7b\"name\":\"\\u00fc, x\"\x7d]\x7d]"

/-- The map of these entries takes 119 bytes, and the comma behind its first number is outside its
strings. -/
theorem print_spacing_quoted :
    (∃ after text, (write quoted ⟨.relative, ["x.json"]⟩ true : OnMachine _)
        (earlier fun _ => false) = (.ok 119, after) ∧
      print quoted true = .ok text ∧ 119 = text.length) ∧
    (print quoted true).map (fun text => unspaced .outside text.toList) = .ok quotedText.toList ∧
    ∃ front back, print quoted false = .ok quotedText ∧ quotedText.toList = front ++ ',' :: back ∧
      front.foldl Place.behind .outside = .outside ∧ ',' ≠ ' ' ∧ ',' ≠ '\n' := by
  obtain ⟨_, counts, unspaces, solid⟩ := print_spacing quoted
  have went : ((write quoted ⟨.relative, ["x.json"]⟩ true : OnMachine _)
      (earlier fun _ => false)).1 = .ok 119 := by decide +kernel
  have printed : print quoted false = .ok quotedText := by decide +kernel
  have split : quotedText.toList = quotedText.toList.take 10 ++
      ',' :: quotedText.toList.drop 11 := by decide +kernel
  have outside : (quotedText.toList.take 10).foldl Place.behind .outside = .outside := by
    decide +kernel
  cases wrote : (write quoted ⟨.relative, ["x.json"]⟩ true : OnMachine _)
      (earlier fun _ => false) with
  | mk outcome after =>
    rw [wrote] at went
    cases went
    obtain ⟨text, indented, size⟩ := counts _ _ _ _ _ wrote
    rw [printed] at unspaces
    exact ⟨⟨after, text, rfl, indented, size⟩, unspaces, _, _, printed, split, outside,
      solid _ _ _ _ printed split outside⟩

end MapFile

end GlobalMap
