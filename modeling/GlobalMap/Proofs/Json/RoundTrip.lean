import GlobalMap.Proofs.Json.Regular

/-! Reading what is written gives the value back, in both layouts. A number or word has
no end of its own: it is still open when the text of its value ends, and the next comma,
bracket or blank closes it. Hence the text of a value leads to the state behind the value
only up to a word that has yet to end. -/
namespace GlobalMap.Json

namespace Reader

variable {s settled next : State} {frames : List Frame} {letters more : List Char} {c : Char}

/-- No string and no word is open. -/
def Mode.isQuiet : Mode → Bool
  | .string _ _ _ => false
  | .word _ => false
  | _ => true

/-- A state is another one, up to a number or word that has yet to end. -/
structure Awaits (s settled : State) : Prop where
  ends : endWord s = .ok settled
  quiet : settled.mode.isQuiet = true

/-- Some characters lead to a state, up to a number or word that has yet to end. -/
def Reads (s : State) (letters : List Char) (settled : State) : Prop :=
  ∃ last, run s letters = .ok last ∧ Awaits last settled

/-- A value may start, inside these arrays and objects. -/
def Opens (s : State) (frames : List Frame) : Prop :=
  ∀ c, isBlank c = false → c ≠ ']' → step s c = orMalformed (startValue frames c)

section Quiet

theorem step_of_quiet (quiet : s.mode.isQuiet = true) (c : Char) :
    step s c = orMalformed (stepBetween s c) := by
  obtain ⟨frames, mode⟩ := s
  cases mode with
  | string role contents escape => cases quiet
  | word letters => cases quiet
  | _ => rfl

theorem awaits_of_quiet (quiet : s.mode.isQuiet = true) : Awaits s s := by
  refine ⟨?_, quiet⟩
  obtain ⟨frames, mode⟩ := s
  cases mode with
  | string role contents escape => cases quiet
  | word letters => cases quiet
  | _ => rfl

theorem quiet_deliver (frames : List Frame) (value : Json) :
    (deliver frames value).mode.isQuiet = true := by
  cases frames with
  | nil => rfl
  | cons frame rest => cases frame <;> rfl

/-- Blanks change nothing. -/
theorem run_gap (quiet : s.mode.isQuiet = true) (layout : Layout) (level : Nat) :
    run s (layout.gap level) = .ok s := by
  have blanks : ∀ count, run s (List.replicate count ' ') = .ok s := by
    intro count
    induction count with
    | zero => rfl
    | succ count ih =>
      rw [List.replicate_succ, run_cons, step_of_quiet quiet]
      exact ih
  cases layout with
  | compact => rfl
  | indented =>
    rw [Layout.gap, run_cons, step_of_quiet quiet]
    exact blanks (2 * level)

end Quiet

section Steps

theorem Reads.behind (steps : run s letters = .ok next) (rest : Reads next more settled) :
    Reads s (letters ++ more) settled := by
  obtain ⟨last, taken, awaits⟩ := rest
  refine ⟨last, ?_, awaits⟩
  rw [run_append, steps, ok_bind, taken]

theorem Reads.append (first : Reads s letters settled)
    (second : ∀ last, Awaits last settled → Reads last more next) :
    Reads s (letters ++ more) next := by
  obtain ⟨middle, taken, awaits⟩ := first
  exact .behind taken (second middle awaits)

/-- A character that no word contains ends an open one. -/
theorem Awaits.step_of_outside (awaits : Awaits s settled) (outside : isWordChar c = false) :
    step s c = orMalformed (stepBetween settled c) := by
  obtain ⟨ends, quiet⟩ := awaits
  obtain ⟨frames, mode⟩ := s
  cases mode with
  | word letters =>
    simp only [step, outside, Bool.false_eq_true, if_false, ends]
    rfl
  | string role contents escape =>
    cases ends
    cases quiet
  | _ =>
    cases ends
    exact step_of_quiet quiet c

/-- A comma or a bracket. -/
theorem Awaits.mark (awaits : Awaits s settled) (outside : isWordChar c = false)
    (solid : isBlank c = false) (taken : between settled.frames settled.mode c = some next) :
    run s [c] = .ok next := by
  rw [run_cons, awaits.step_of_outside outside, stepBetween, solid, if_neg Bool.false_ne_true,
    taken]
  rfl

/-- A comma, with a new line behind it or not. -/
theorem Awaits.comma (awaits : Awaits s settled)
    (taken : between settled.frames settled.mode ',' = some next)
    (quiet : next.mode.isQuiet = true) (layout : Layout) (level : Nat) :
    run s (',' :: layout.gap level) = .ok next := by
  have mark := awaits.mark rfl rfl taken
  have gap := run_gap quiet layout level
  rw [← List.singleton_append, run_append, mark, ok_bind, gap]

/-- A closing bracket, on a line of its own or not. -/
theorem Awaits.close (awaits : Awaits s settled) (outside : isWordChar c = false)
    (solid : isBlank c = false) (taken : between settled.frames settled.mode c = some next)
    (quiet : next.mode.isQuiet = true) (layout : Layout) (level : Nat) :
    Reads s (layout.gap level ++ [c]) next := by
  cases layout with
  | compact => exact ⟨next, awaits.mark outside solid taken, awaits_of_quiet quiet⟩
  | indented =>
    have newline : step s '\n' = .ok settled := awaits.step_of_outside rfl
    have blanks := run_gap awaits.quiet .indented level
    rw [Layout.gap, run_cons, step_of_quiet awaits.quiet] at blanks
    have gap : run s (Layout.indented.gap level) = .ok settled := by
      rw [Layout.gap, run_cons, newline]
      exact blanks
    refine .behind gap ⟨next, ?_, awaits_of_quiet quiet⟩
    exact (awaits_of_quiet awaits.quiet).mark outside solid taken

end Steps

section Parts

theorem opens_value : Opens ⟨frames, .value⟩ frames := by
  intro c solid _
  rw [step_of_quiet rfl, stepBetween, solid, if_neg Bool.false_ne_true]
  rfl

theorem opens_firstItem : Opens ⟨frames, .firstItem⟩ (.array [] :: frames) := by
  intro c solid other
  rw [step_of_quiet rfl, stepBetween, solid, if_neg Bool.false_ne_true, between, if_neg other]

theorem run_word (all : ∀ c ∈ letters, isWordChar c = true) (read : List Char) :
    run ⟨frames, .word read⟩ letters = .ok ⟨frames, .word (letters.reverse ++ read)⟩ := by
  induction letters generalizing read with
  | nil => rfl
  | cons c rest ih =>
    obtain ⟨first, behind⟩ := List.forall_mem_cons.mp all
    have longer : step ⟨frames, .word read⟩ c = .ok ⟨frames, .word (c :: read)⟩ := if_pos first
    rw [run_cons, longer, ok_bind, ih behind, List.reverse_cons, List.append_assoc]
    rfl

/-- A number or word. -/
theorem Opens.word {value : Json} (opens : Opens s frames)
    (all : ∀ c ∈ letters, isWordChar c = true) (nonempty : letters ≠ [])
    (spelled : valueOf letters = .ok value) : Reads s letters (deliver frames value) := by
  obtain ⟨c, rest, rfl⟩ := List.exists_cons_of_ne_nil nonempty
  obtain ⟨first, behind⟩ := List.forall_mem_cons.mp all
  have apart : ∀ other : Char, isWordChar other = false → c ≠ other := by
    rintro other outside rfl
    rw [first] at outside
    cases outside
  have solid : isBlank c = false := by
    simp [isBlank, apart ' ' rfl, apart '\t' rfl, apart '\n' rfl, apart '\r' rfl]
  have started : step s c = .ok ⟨frames, .word [c]⟩ := by
    rw [opens c solid (apart ']' rfl), startValue, if_neg (apart '[' rfl), if_neg (apart '{' rfl),
      if_neg (apart '"' rfl), if_pos first]
    rfl
  refine ⟨⟨frames, .word (rest.reverse ++ [c])⟩, ?_, ?_, quiet_deliver frames value⟩
  · rw [run_cons, started]
    exact run_word behind [c]
  · simp only [endWord, List.reverse_append, List.reverse_reverse, List.reverse_cons,
      List.reverse_nil, List.nil_append, List.cons_append, spelled]
    rfl

theorem Opens.string {t : Text} (opens : Opens s frames) (whole : t.Whole) :
    Reads s t.render (deliver frames (.string t)) := by
  refine ⟨deliver frames (.string t), ?_, awaits_of_quiet (quiet_deliver frames _)⟩
  have quoted : step s '"' = .ok ⟨frames, .string .value [] .none⟩ := opens '"' rfl (by decide)
  rw [Text.render, List.cons_append, run_cons, quoted, ok_bind, run_string t whole,
    closeString, List.reverse_reverse]

/-- A key and the colon behind it. -/
theorem run_key {key : Text} {fields : List (Text × Json)} (whole : key.Whole)
    (quoted : step s '"' = .ok ⟨frames, .string (.key fields) [] .none⟩) (layout : Layout) :
    run s (key.render ++ layout.colon) = .ok ⟨.object fields key :: frames, .value⟩ := by
  have colon : run ⟨frames, .colon fields key⟩ layout.colon =
      .ok ⟨.object fields key :: frames, .value⟩ := by
    cases layout <;> rfl
  rw [run_append, Text.render, List.cons_append, run_cons, quoted, ok_bind,
    run_string key whole, closeString, List.reverse_reverse, ok_bind, colon]

end Parts

theorem setField_of_new {fields : List (Text × Json)} {key : Text} (new : key ∉ fields.map Prod.fst)
    (value : Json) : setField fields key value = fields ++ [(key, value)] := by
  induction fields with
  | nil => rfl
  | cons field rest ih =>
    obtain ⟨k, v⟩ := field
    rw [List.map_cons, List.mem_cons, not_or] at new
    rw [setField, if_neg fun same => new.1 same.symm, ih new.2]
    rfl

mutual

/-- The text of a value leads to the state behind the value. -/
theorem reads_render (layout : Layout) (level : Nat) : ∀ (v : Json), v.Exact → v.KeysOnce →
    v.Writable →
    ∀ {s : State} {frames : List Frame}, Opens s frames →
      Reads s (render layout level v) (deliver frames v)
  | .null, _, _, _, _, _, opens => by
    rw [render]
    exact opens.word (List.all_eq_true.mp rfl) (List.cons_ne_nil _ _) rfl
  | .bool true, _, _, _, _, _, opens => by
    rw [render]
    exact opens.word (List.all_eq_true.mp rfl) (List.cons_ne_nil _ _) rfl
  | .bool false, _, _, _, _, _, opens => by
    rw [render]
    exact opens.word (List.all_eq_true.mp rfl) (List.cons_ne_nil _ _) rfl
  | .int n, _, _, short, _, _, opens => by
    rw [render]
    exact opens.word (fun _ mem => isWordChar_intText mem) (intText_ne_nil n)
      (valueOf_intText short)
  | .real x, exact, _, _, _, _, _ => False.elim exact
  | .string t, whole, _, _, _, _, opens => by
    rw [render]
    exact opens.string whole
  | .array [], _, _, _, s, frames, opens => by
    have opened : step s '[' = .ok ⟨frames, .firstItem⟩ := opens '[' rfl (by decide)
    refine ⟨deliver frames (.array []), ?_, awaits_of_quiet (quiet_deliver frames _)⟩
    rw [render, run_cons, opened]
    rfl
  | .array (item :: rest), exact, once, writable, s, frames, opens => by
    have text : render layout level (.array (item :: rest)) = ('[' :: layout.gap (level + 1)) ++
        (render layout (level + 1) item ++ (renderItems layout (level + 1) rest ++
          (layout.gap level ++ [']']))) := by
      simp only [render, List.append_assoc]
    have opened : run s ('[' :: layout.gap (level + 1)) = .ok ⟨frames, .firstItem⟩ := by
      rw [run_cons, opens '[' rfl (by decide)]
      exact run_gap rfl layout (level + 1)
    have first : Reads ⟨frames, .firstItem⟩ (render layout (level + 1) item)
        ⟨frames, .afterItem [item]⟩ :=
      reads_render layout (level + 1) item exact.2.1 once.2.1 writable.2.1 opens_firstItem
    have items : (rest.reverse ++ [item]).reverse = item :: rest := by simp
    have closed : ∀ last, Awaits last ⟨frames, .afterItem (rest.reverse ++ [item])⟩ →
        Reads last (layout.gap level ++ [']']) (deliver frames (.array (item :: rest))) := by
      intro last awaits
      exact awaits.close rfl rfl (by rw [← items]; rfl) (quiet_deliver frames _) layout level
    rw [text]
    refine .behind opened (first.append fun last awaits => ?_)
    exact (reads_renderItems layout (level + 1) rest exact.2.2 once.2.2 writable.2.2
      awaits).append closed
  | .object [], _, _, _, s, frames, opens => by
    have opened : step s '{' = .ok ⟨frames, .firstKey⟩ := opens '{' rfl (by decide)
    refine ⟨deliver frames (.object []), ?_, awaits_of_quiet (quiet_deliver frames _)⟩
    rw [render, run_cons, opened]
    rfl
  | .object ((key, value) :: rest), exact, once, writable, s, frames, opens => by
    have text : render layout level (.object ((key, value) :: rest)) =
        ('{' :: layout.gap (level + 1)) ++ ((key.render ++ layout.colon) ++
          (render layout (level + 1) value ++ (renderFields layout (level + 1) rest ++
            (layout.gap level ++ ['}'])))) := by
      simp only [render, List.append_assoc]
    obtain ⟨whole, behind⟩ := List.forall_mem_cons.mp exact.1
    have opened : run s ('{' :: layout.gap (level + 1)) = .ok ⟨frames, .firstKey⟩ := by
      rw [run_cons, opens '{' rfl (by decide)]
      exact run_gap rfl layout (level + 1)
    have keyed : run ⟨frames, .firstKey⟩ (key.render ++ layout.colon) =
        .ok ⟨.object [] key :: frames, .value⟩ := run_key whole rfl layout
    have first : Reads ⟨.object [] key :: frames, .value⟩ (render layout (level + 1) value)
        ⟨frames, .afterField [(key, value)]⟩ :=
      reads_render layout (level + 1) value exact.2.1 once.2.1 writable.2.1 opens_value
    have closed : ∀ last, Awaits last ⟨frames, .afterField ([(key, value)] ++ rest)⟩ →
        Reads last (layout.gap level ++ ['}']) (deliver frames (.object ((key, value) :: rest))) :=
      fun _ awaits => awaits.close rfl rfl rfl (quiet_deliver frames _) layout level
    have distinct : (([(key, value)] ++ rest).map Prod.fst).Nodup := once.1
    rw [text]
    refine .behind opened (.behind keyed (first.append fun last awaits => ?_))
    exact (reads_renderFields layout (level + 1) rest behind exact.2.2 once.2.2 writable.2.2
      distinct awaits).append closed

/-- The items behind one that has been read. -/
theorem reads_renderItems (layout : Layout) (level : Nat) : ∀ (items : List Json),
    ThroughoutItems Spelled items → ThroughoutItems KeysDistinct items →
    ThroughoutItems Short items →
    ∀ {s : State} {outer : List Frame} {before : List Json},
      Awaits s ⟨outer, .afterItem before⟩ →
      Reads s (renderItems layout level items) ⟨outer, .afterItem (items.reverse ++ before)⟩
  | [], _, _, _, s, _, _, awaits => ⟨s, rfl, awaits⟩
  | item :: rest, exact, once, writable, s, outer, before, awaits => by
    have text : renderItems layout level (item :: rest) = (',' :: layout.gap level) ++
        (render layout level item ++ renderItems layout level rest) := by
      simp only [renderItems, List.append_assoc]
    have comma : run s (',' :: layout.gap level) = .ok ⟨.array before :: outer, .value⟩ :=
      awaits.comma rfl rfl layout level
    have first : Reads ⟨.array before :: outer, .value⟩ (render layout level item)
        ⟨outer, .afterItem (item :: before)⟩ :=
      reads_render layout level item exact.1 once.1 writable.1 opens_value
    rw [text, List.reverse_cons, List.append_assoc]
    refine .behind comma (first.append fun last awaits => ?_)
    exact reads_renderItems layout level rest exact.2 once.2 writable.2 awaits

/-- The fields behind one that has been read. -/
theorem reads_renderFields (layout : Layout) (level : Nat) : ∀ (fields : List (Text × Json)),
    (∀ field ∈ fields, field.1.Whole) → ThroughoutFields Spelled fields →
    ThroughoutFields KeysDistinct fields → ThroughoutFields Short fields →
    ∀ {s : State} {outer : List Frame} {before : List (Text × Json)},
      ((before ++ fields).map Prod.fst).Nodup → Awaits s ⟨outer, .afterField before⟩ →
      Reads s (renderFields layout level fields) ⟨outer, .afterField (before ++ fields)⟩
  | [], _, _, _, _, s, _, before, _, awaits => ⟨s, rfl, by rwa [List.append_nil]⟩
  | (key, value) :: rest, whole, exact, once, writable, s, outer, before, distinct, awaits => by
    have text : renderFields layout level ((key, value) :: rest) = (',' :: layout.gap level) ++
        ((key.render ++ layout.colon) ++
          (render layout level value ++ renderFields layout level rest)) := by
      simp only [renderFields, List.append_assoc]
    obtain ⟨keyWhole, behind⟩ := List.forall_mem_cons.mp whole
    have new : key ∉ before.map Prod.fst := by
      rw [List.map_append, List.nodup_append] at distinct
      exact fun mem => distinct.2.2 key mem key List.mem_cons_self rfl
    have comma : run s (',' :: layout.gap level) = .ok ⟨outer, .key before⟩ :=
      awaits.comma rfl rfl layout level
    have keyed : run ⟨outer, .key before⟩ (key.render ++ layout.colon) =
        .ok ⟨.object before key :: outer, .value⟩ := run_key keyWhole rfl layout
    have first : Reads ⟨.object before key :: outer, .value⟩ (render layout level value)
        ⟨outer, .afterField (before ++ [(key, value)])⟩ := by
      rw [← setField_of_new new]
      exact reads_render layout level value exact.1 once.1 writable.1 opens_value
    rw [List.append_cons] at distinct ⊢
    rw [text]
    refine .behind comma (.behind keyed (first.append fun last awaits => ?_))
    exact reads_renderFields layout level rest behind exact.2 once.2 writable.2 distinct awaits

end

end Reader

mutual

/-- Values that compare the same are equal. -/
theorem eq_of_same : ∀ {a b : Json}, same a b = true → a = b
  | .null, .null, _ => rfl
  | .bool _, .bool _, h => congrArg Json.bool (eq_of_beq h)
  | .int _, .int _, h => congrArg Json.int (eq_of_beq h)
  | .real _, .real _, h => congrArg Json.real (eq_of_beq h)
  | .string _, .string _, h => congrArg Json.string (eq_of_beq h)
  | .array _, .array _, h => congrArg Json.array (eq_of_sameItems h)
  | .object _, .object _, h => congrArg Json.object (eq_of_sameFields h)

theorem eq_of_sameItems : ∀ {a b : List Json}, sameItems a b = true → a = b
  | [], [], _ => rfl
  | _ :: _, _ :: _, h => by
    rw [sameItems, Bool.and_eq_true] at h
    rw [eq_of_same h.1, eq_of_sameItems h.2]

theorem eq_of_sameFields : ∀ {a b : List (Text × Json)}, sameFields a b = true → a = b
  | [], [], _ => rfl
  | (_, _) :: _, (_, _) :: _, h => by
    rw [sameFields, Bool.and_eq_true, Bool.and_eq_true] at h
    rw [eq_of_beq h.1.1, eq_of_same h.1.2, eq_of_sameFields h.2]

end

mutual

theorem hasOverlong_eq_false_iff : ∀ (v : Json), v.hasOverlong = false ↔ v.Writable
  | .null => iff_of_true rfl trivial
  | .bool _ => iff_of_true rfl trivial
  | .int _ => Iff.rfl
  | .real _ => iff_of_true rfl trivial
  | .string _ => iff_of_true rfl trivial
  | .array items => (hasOverlongItem_eq_false_iff items).trans (and_iff_right trivial).symm
  | .object fields => (hasOverlongField_eq_false_iff fields).trans (and_iff_right trivial).symm

theorem hasOverlongItem_eq_false_iff : ∀ (items : List Json),
    hasOverlongItem items = false ↔ ThroughoutItems Short items
  | [] => iff_of_true rfl trivial
  | item :: rest => by
    rw [hasOverlongItem, Bool.or_eq_false_iff, hasOverlong_eq_false_iff item,
      hasOverlongItem_eq_false_iff rest]
    rfl

theorem hasOverlongField_eq_false_iff : ∀ (fields : List (Text × Json)),
    hasOverlongField fields = false ↔ ThroughoutFields Short fields
  | [] => iff_of_true rfl trivial
  | (_, value) :: rest => by
    rw [hasOverlongField, Bool.or_eq_false_iff, hasOverlong_eq_false_iff value,
      hasOverlongField_eq_false_iff rest]
    rfl

end

/-- A value is written if and only if no whole number in it has too many digits. -/
theorem print_eq_ok_iff {v : Json} {layout : Layout} {text : String} :
    print layout v = .ok text ↔ v.Writable ∧ text = String.ofList (render layout 0 v) := by
  rw [← hasOverlong_eq_false_iff, print]
  cases v.hasOverlong with
  | false => simp [eq_comm]
  | true => simp

/-- **A value is read back from its text.** It may hold no real number, no lone
surrogate, no object with a key twice and no whole number with too many digits. -/
theorem parse_print {v : Json} (exact : v.Exact) (regular : v.Regular) (layout : Layout) :
    ∃ text, print layout v = .ok text ∧ parse text = .ok v := by
  have opens : Reader.Opens Reader.start [] := Reader.opens_value
  obtain ⟨last, taken, awaits⟩ :=
    Reader.reads_render layout 0 v exact regular.once regular.writable opens
  refine ⟨String.ofList (render layout 0 v), print_eq_ok_iff.mpr ⟨regular.writable, rfl⟩, ?_⟩
  · have run : (String.ofList (render layout 0 v)).toList.foldlM Reader.step Reader.start =
        .ok last := by
      rw [String.toList_ofList]
      exact taken
    rw [parse, run]
    change Reader.finish last = .ok v
    rw [Reader.finish, awaits.ends]
    rfl

end GlobalMap.Json
