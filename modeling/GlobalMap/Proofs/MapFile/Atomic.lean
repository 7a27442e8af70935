import GlobalMap.Proofs.MapFile.Replacement
import GlobalMap.Proofs.MapFile.RoundTrip

/-! Writing a map file as a whole. Whatever is refused, and however much of the temporary file was
written by then, the machine afterwards is one with the whole map at its place or one with nothing
of it; no other file tells that it was tried, but for the lines in a log file. -/
namespace GlobalMap

open FileTree OnMachine

variable {m m' : Machine} {path : Path} {place goal : List String} {records : List Record}

/-! ## Records of the writing -/

/-- A stage hands in a record before its action and one behind it. -/
theorem run_stage {α ε : Type} {channel name : String} {reason : ε → String}
    {x : OnMachine (Except ε α)} {r : Except ε α}
    (action : x (m.emitAll [⟨.debug, channel, Stage.starting name⟩]) = (r, m')) :
    ∃ record, (stage channel name reason x : OnMachine _) m = (r, m'.emitAll [record]) := by
  have begun : (Host.debug channel (Stage.starting name) : OnMachine Unit) m =
      ((), m.emitAll [⟨.debug, channel, Stage.starting name⟩]) := rfl
  cases r with
  | ok a => exact ⟨_, (run_bind begun).trans ((run_bind rfl).trans (run_bind action))⟩
  | error e => exact ⟨_, (run_bind begun).trans ((run_bind rfl).trans (run_bind action))⟩

namespace Machine

/-- What stands at a place has been left alone. It may have lines added behind it if it is the file
that records are written to. -/
def Leaves (m m' : Machine) (place : List String) : Prop :=
  ∃ lines, (m.kept ≠ some place → lines = []) ∧
    m'.files[place]? = m.files[place]?.map (Node.behind lines)

theorem leaves_emitAll (m : Machine) (records : List Record) (place : List String) :
    m.Leaves (m.emitAll records) place :=
  ⟨m.linesAt place records, fun other => linesAt_of_ne other records,
    getElem?_emitAll m records place⟩

theorem leaves_put (m : Machine) (other : place ≠ goal) (contents : Bytes) (mode : Nat) :
    m.Leaves (m.put goal contents mode) place := by
  refine ⟨[], fun _ => rfl, ?_⟩
  rw [Node.map_behind_nil]
  exact getElem?_insert_of_ne _ other

theorem Leaves.trans {m'' : Machine} (first : m.Leaves m' place)
    (kept : m.kept ≠ some place → m'.kept ≠ some place) (next : m'.Leaves m'' place) :
    m.Leaves m'' place := by
  obtain ⟨lines, few, held⟩ := first
  obtain ⟨more, few', held'⟩ := next
  refine ⟨lines ++ more, fun other => ?_, ?_⟩
  · rw [few other, few' (kept other), List.append_nil]
  · rw [held', held, Option.map_map]
    congr 1
    funext node
    exact node.behind_behind _ _

theorem Leaves.getElem?_eq (leaves : m.Leaves m' place) (other : m.kept ≠ some place) :
    m'.files[place]? = m.files[place]? := by
  obtain ⟨lines, few, held⟩ := leaves
  rw [held, few other, Node.map_behind_nil]

/-- What is put at a place stands there as it is, whatever records are handed in afterwards. -/
theorem getElem?_emitAll_put (m : Machine) (goal : List String) (contents : Bytes) (mode : Nat)
    (records : List Record) :
    ((m.put goal contents mode).emitAll records).files[goal]? = some (.file contents mode) := by
  rw [getElem?_emitAll, linesAt_of_ne (kept_put_ne m goal contents mode), Node.map_behind_nil]
  exact getElem?_insert_self _

end Machine

namespace MapFile

/-- Records do not get in the way of replacing a file. -/
theorem Hinders.of_emitAll {refusal : Refusal}
    (hinders : Hinders (m.emitAll records) path refusal) : Hinders m path refusal := by
  cases hinders with
  | told refused =>
    rw [Machine.refuses_emitAll] at refused
    exact .told refused
  | unmade refused => exact .unmade (Machine.createTemporary_emitAll.mp refused)
  | directory leads stands =>
    exact .directory (Machine.place_emitAll.mp leads) (Machine.directory_emitAll.mp stands)

/-- A path without null characters is refused by the machine, if it is. -/
theorem Hinders.isOfMachine {refusal : Refusal} (hinders : Hinders m path refusal)
    (clean : ∀ name ∈ path.parts, name.toList.contains '\x00' = false) :
    Unwritable.isOfMachine (.refused path refusal) = true := by
  rw [Unwritable.isOfMachine, bne_iff_ne]
  cases hinders with
  | told refused => exact fun same => by cases same
  | directory leads stands => exact fun same => by cases same
  | unmade refused =>
    rintro rfl
    refine Machine.createTemporary_ne_nullCharacter (Machine.checkPath_eq_ok.mpr ?_) refused
    refine List.forall_mem_append.mpr ⟨fun name mem => clean name (List.dropLast_subset _ mem),
      List.forall_mem_singleton.mpr ?_⟩
    have own : (path.name?.getD "").toList.contains '\x00' = false := by
      cases last : path.name? with
      | none => rfl
      | some own => exact clean own (List.mem_of_getLast? last)
    simp only [List.contains_eq_mem, decide_eq_false_iff_not, String.toList_append,
      List.mem_append, not_or] at own ⊢
    exact ⟨⟨⟨by decide, own⟩, by decide⟩, by decide⟩

/-! ## Permission bits -/

/-- The permission bits of what has been put at a place: those of the file that it replaced, and of
0666 those that the umask leaves where it replaced none. -/
structure Inherits (m : Machine) (goal : List String) (mode : Nat) : Prop where
  replaced : ∀ (contents : Bytes) (bits : Nat),
    m.files[goal]? = some (.file contents bits) → mode = bits
  fresh : m.files[goal]? = none →
    ∀ bit, mode.testBit bit = (Nat.testBit 0o666 bit && !m.umask.testBit bit)

theorem testBit_ofNewFile (umask bit : Nat) :
    (Permission.ofNewFile umask).testBit bit = (Nat.testBit 0o666 bit && !umask.testBit bit) := by
  have all : (0o777 : Nat).testBit bit = decide (bit < 9) := Nat.testBit_two_pow_sub_one 9 bit
  rw [Permission.ofNewFile, Nat.testBit_and, Nat.testBit_xor, Nat.testBit_and, all]
  by_cases low : bit < 9
  · simp [low]
  · have none : (0o666 : Nat).testBit bit = false :=
      Nat.testBit_lt_two_pow (Nat.lt_of_lt_of_le (by decide : 0o666 < 2 ^ 9)
        (Nat.pow_le_pow_right (by decide) (Nat.not_lt.mp low)))
    rw [none]
    rfl

theorem inherits_modeFor (m : Machine) (goal : List String) : Inherits m goal (modeFor m goal) := by
  constructor
  · intro contents bits held
    rw [modeFor, held]
  · intro free bit
    rw [modeFor, free]
    exact testBit_ofNewFile m.umask bit

theorem modeFor_emitAll (m : Machine) (records : List Record) (goal : List String) :
    modeFor (m.emitAll records) goal = modeFor m goal := by
  have umask : (m.emitAll records).umask = m.umask := by
    obtain ⟨_, _, _, same, _⟩ := Machine.emitAll_eq m records
    rw [same]
  unfold modeFor
  rw [Machine.getElem?_emitAll, umask]
  cases m.files[goal]? with
  | none => rfl
  | some node => cases node <;> rfl

/-! ## Writing -/

/-- The record that the writing of a map begins with. -/
def writingStarts : Record :=
  ⟨.debug, Channel.mapFile, Stage.starting "write_map_file"⟩

section Run

variable {entries : List MapEntry} {pretty : Bool} {text : String}

/-- Entries that have no text are given up between two records. -/
theorem run_write_overlong (path : Path) (m : Machine) {number : Number.Overlong}
    (failed : print entries pretty = .error number) :
    ∃ records, (write entries path pretty : OnMachine _) m =
      (.error (.overlong number), m.emitAll records) := by
  have staged : ∃ record, (write entries path pretty : OnMachine _) m =
      (.error (.overlong number), (m.emitAll [writingStarts]).emitAll [record]) := by
    refine run_stage ?_
    rw [failed]
    rfl
  obtain ⟨record, written⟩ := staged
  rw [← Machine.emitAll_append] at written
  exact ⟨_, written⟩

/-- Writing a map replaces a file, and hands in records before that and behind it. -/
theorem run_write {outcome : Except Refusal Unit} (printed : print entries pretty = .ok text)
    (replaced : (replaceContents path (encoded text) : OnMachine _)
      (m.emitAll [writingStarts]) = (outcome, m')) :
    ∃ records, (write entries path pretty : OnMachine _) m =
      ((outcome.map fun _ => (encoded text).length).mapError (Unwritable.refused path),
        m'.emitAll records) := by
  cases outcome with
  | error refusal =>
    have staged : ∃ record, (write entries path pretty : OnMachine _) m =
        (.error (.refused path refusal), m'.emitAll [record]) := by
      refine run_stage ?_
      rw [printed]
      exact (run_bind replaced).trans rfl
    obtain ⟨record, written⟩ := staged
    exact ⟨[record], written⟩
  | ok _ =>
    let size := (encoded text).length
    let note : Record := ⟨.info, Channel.mapFile,
      s!"Wrote {entries.length} entries ({size} bytes) to {path.text}"⟩
    have staged : ∃ record, (write entries path pretty : OnMachine _) m =
        (.ok size, (m'.emitAll [note]).emitAll [record]) := by
      refine run_stage ?_
      rw [printed]
      exact (run_bind replaced).trans ((run_bind rfl).trans rfl)
    obtain ⟨record, written⟩ := staged
    exact ⟨[note, record], written⟩

end Run

/-- What writing does to a machine, record by record: nothing if the entries have no text, and
nothing if the machine refuses something. -/
theorem write_outcome (sound : m.Sound) (entries : List MapEntry) (path : Path) (pretty : Bool) :
    (∃ number records, print entries pretty = .error number ∧
      (write entries path pretty : OnMachine _) m =
        (.error (.overlong number), m.emitAll records)) ∨
    ∃ text, print entries pretty = .ok text ∧
      ((∃ refusal records, Hinders m path refusal ∧
        (write entries path pretty : OnMachine _) m =
          (.error (.refused path refusal), m.emitAll records)) ∨
      ∃ (goal : List String) (before after : List Record), m.place path = .ok goal ∧
        m.files[goal]? ≠ some .directory ∧
        (write entries path pretty : OnMachine _) m =
          (.ok (encoded text).length,
            ((m.emitAll before).put goal (encoded text) (modeFor m goal)).emitAll after)) := by
  cases printed : print entries pretty with
  | error number =>
    obtain ⟨records, failed⟩ := run_write_overlong path m printed
    exact .inl ⟨number, records, rfl, failed⟩
  | ok text =>
    refine .inr ⟨text, rfl, ?_⟩
    rcases replaceContents_outcome (sound.emitAll [writingStarts]) path (encoded text) with
      ⟨refusal, hinders, refused⟩ | ⟨goal, leads, file, replaced⟩
    · obtain ⟨records, written⟩ := run_write printed refused
      rw [← Machine.emitAll_append] at written
      exact .inl ⟨refusal, _, hinders.of_emitAll, written⟩
    · rw [modeFor_emitAll] at replaced
      obtain ⟨records, written⟩ := run_write printed replaced
      exact .inr ⟨goal, [writingStarts], records, Machine.place_emitAll.mp leads,
        fun directory => file (Machine.directory_emitAll.mpr directory), written⟩

/-- **Writing a map file is atomic.** Either the whole map is at its place with the permission bits
that belong there, and its size is the result; or the machine has refused something on the way; or
there is no text of the entries, since a number in them has too many digits. Everything else has
been left alone in all cases, so no temporary file is left. -/
theorem write_atomic (sound : m.Sound) (entries : List MapEntry) (path : Path) (pretty : Bool) :
    (∃ text, print entries pretty = .ok text ∧
      ((∃ (goal : List String) (mode : Nat) (after : Machine), m.place path = .ok goal ∧
        m.files[goal]? ≠ some .directory ∧
        (write entries path pretty : OnMachine _) m = (.ok (encoded text).length, after) ∧
        after.files[goal]? = some (.file (encoded text) mode) ∧
        Inherits m goal mode ∧ ∀ place, place ≠ goal → m.Leaves after place) ∨
      ∃ (refusal : Refusal) (after : Machine),
        (write entries path pretty : OnMachine _) m = (.error (.refused path refusal), after) ∧
        Hinders m path refusal ∧
        ((∀ name ∈ path.parts, name.toList.contains '\x00' = false) →
          Unwritable.isOfMachine (.refused path refusal) = true) ∧
        ∀ place, m.Leaves after place)) ∨
    ∃ (number : Number.Overlong) (after : Machine), print entries pretty = .error number ∧
      ¬MapEntry.CarriesAll Json.Writable entries ∧
      (write entries path pretty : OnMachine _) m = (.error (.overlong number), after) ∧
      ∀ place, m.Leaves after place := by
  rcases write_outcome sound entries path pretty with
    ⟨number, records, failed, unwritten⟩ |
    ⟨text, printed, ⟨refusal, records, hinders, refused⟩ |
      ⟨goal, before, after, leads, file, written⟩⟩
  · exact .inr ⟨number, _, failed, (print_eq_error_iff.mp failed).1, unwritten,
      m.leaves_emitAll records⟩
  · exact .inl ⟨text, printed, .inr ⟨refusal, _, refused, hinders, hinders.isOfMachine,
      m.leaves_emitAll records⟩⟩
  · refine .inl ⟨text, printed, .inl ⟨goal, _, _, leads, file, written,
      Machine.getElem?_emitAll_put _ _ _ _ _, inherits_modeFor m goal, fun place apart => ?_⟩⟩
    have kept (other : m.kept ≠ some place) : (m.emitAll before).kept ≠ some place := by
      rwa [Machine.kept_emitAll]
    have put := ((m.leaves_emitAll before place).trans kept
      ((m.emitAll before).leaves_put apart (encoded text) (modeFor m goal)))
    exact put.trans (fun other => Machine.kept_put_of_ne (kept other) _ _)
      (Machine.leaves_emitAll _ after place)

/-- A machine with a map from an earlier run that others may read. Where it refuses to write a
temporary file it has written five bytes. -/
def earlier (refuses : Request → Bool) : Machine where
  files := ((∅ : FileTree).insert [] .directory).insert ["x.json"] (.file [1, 2, 3] 0o640)
  refuses := refuses
  refusesAfter := 5

/-- Writing a map of one entry over that map. -/
def rewriting : OnMachine (Except Unwritable Nat) :=
  write [{ addr := some (.int 8) }] ⟨.relative, ["x.json"]⟩ false

theorem sound_earlier (refuses : Request → Bool) : (earlier refuses).Sound where
  tree :=
    have isName : FileTree.IsName "x.json" := ⟨by decide, by decide, by decide⟩
    have root : ((∅ : FileTree).insert [] .directory)[([] : List String)]? = some .directory := by
      decide
    FileTree.isTree_root.insert_child isName root (.file [1, 2, 3] 0o640) (by decide)
  stands log kept := by cases kept

/-- A map that takes the place of another, one that is not written to its end, and one that has no
text. -/
theorem write_atomic_earlier :
    (earlier fun _ => false).Sound ∧ (earlier (· == .writeTemporary)).Sound ∧
    (∃ after, rewriting (earlier fun _ => false) = (.ok 12, after) ∧
      after.files[["x.json"]]? = some (.file "[\x7b\"addr\":8\x7d]".toUTF8.toList 0o640)) ∧
    (∃ after, rewriting (earlier (· == .writeTemporary)) =
        (.error (.refused ⟨.relative, ["x.json"]⟩ (.other "refused")), after) ∧
      Unwritable.isOfMachine (.refused ⟨.relative, ["x.json"]⟩ (.other "refused")) = true ∧
      ∀ place : List String,
        after.files[place]? = (earlier (· == .writeTemporary)).files[place]?) ∧
    ∃ after, (write farEntries ⟨.relative, ["x.json"]⟩ false : OnMachine _)
        (earlier fun _ => false) = (.error (.overlong {}), after) ∧
      ∀ place : List String, after.files[place]? = (earlier fun _ => false).files[place]? := by
  have text : print [{ addr := some (.int 8) }] false = .ok "[\x7b\"addr\":8\x7d]" := by
    decide +kernel
  refine ⟨sound_earlier _, sound_earlier _, ?_, ?_, ?_⟩
  · have went : (rewriting (earlier fun _ => false)).1 = .ok 12 := by decide +kernel
    rcases write_atomic (sound_earlier fun _ => false) [{ addr := some (.int 8) }]
        ⟨.relative, ["x.json"]⟩ false with
      ⟨_, printed, ⟨goal, mode, after, leads, _, written, held, inherits, _⟩ |
        ⟨refusal, after, refused, _⟩⟩ | ⟨_, _, failed, _⟩
    · have here : (earlier fun _ => false).place ⟨.relative, ["x.json"]⟩ = .ok ["x.json"] := by
        decide +kernel
      cases leads.symm.trans here
      cases printed.symm.trans text
      have bits := inherits.replaced [1, 2, 3] 0o640 (by decide +kernel)
      rw [bits] at held
      have last : (rewriting (earlier fun _ => false)).2 = after := congrArg Prod.snd written
      exact ⟨after, Prod.ext went last, held⟩
    · cases (congrArg Prod.fst refused).symm.trans went
    · cases failed.symm.trans text
  · have failed : (rewriting (earlier (· == .writeTemporary))).1 =
        .error (.refused ⟨.relative, ["x.json"]⟩ (.other "refused")) := by decide +kernel
    rcases write_atomic (sound_earlier (· == .writeTemporary)) [{ addr := some (.int 8) }]
        ⟨.relative, ["x.json"]⟩ false with
      ⟨_, _, ⟨_, _, after, _, _, written, _⟩ | ⟨refusal, after, refused, _, ofMachine, leaves⟩⟩ |
        ⟨_, _, unprinted, _⟩
    · cases (congrArg Prod.fst written).symm.trans failed
    · have last : (rewriting (earlier (· == .writeTemporary))).2 = after :=
        congrArg Prod.snd refused
      cases (congrArg Prod.fst refused).symm.trans failed
      exact ⟨after, Prod.ext failed last, ofMachine (by decide), fun place =>
        (leaves place).getElem?_eq fun same => by cases same⟩
    · cases unprinted.symm.trans text
  · rcases write_atomic (sound_earlier fun _ => false) farEntries ⟨.relative, ["x.json"]⟩ false with
      ⟨_, printed, _⟩ | ⟨number, after, failed, _, written, leaves⟩
    · cases printed.symm.trans (print_farEntries false)
    · cases failed.symm.trans (print_farEntries false)
      exact ⟨after, written, fun place =>
        (leaves place).getElem?_eq fun same => by cases same⟩

/-- On a machine that refuses nothing, writing an entry at a number with too many digits ends in a
fault that is not one of the machine. -/
theorem write_farEntries :
    (earlier fun _ => false).Sound ∧
      ∃ fault after, (write farEntries ⟨.relative, ["x.json"]⟩ false : OnMachine _)
          (earlier fun _ => false) = (.error fault, after) ∧
        fault.isOfMachine = false := by
  obtain ⟨records, failed⟩ :=
    run_write_overlong ⟨.relative, ["x.json"]⟩ (earlier fun _ => false) (print_farEntries false)
  exact ⟨sound_earlier _, _, _, failed, rfl⟩

end MapFile

end GlobalMap
