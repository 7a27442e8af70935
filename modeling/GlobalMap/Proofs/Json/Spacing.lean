import GlobalMap.Proofs.Json.Spelling

/-! What the layouts of a document have in common. Outside the strings of a text a layout puts
spaces and line feeds of its own, and inside them none: without these the text is the compact one,
whatever the strings hold. Every other character that is written is printable ASCII. -/
namespace GlobalMap.Json

/-- Where a place in a JSON text is. -/
inductive Place where
  | outside
  /-- In a string, behind its opening quote. -/
  | inside
  /-- In a string, behind a backslash that takes the next character along. -/
  | escaped
  deriving DecidableEq, Repr

/-- The place behind a character. -/
def Place.behind : Place → Char → Place
  | .outside, c => if c = '"' then .inside else .outside
  | .inside, c => if c = '"' then .outside else if c = '\\' then .escaped else .inside
  | .escaped, _ => .inside

/-- A text, read from a place on, without the spaces and line feeds outside its strings. -/
def unspaced : Place → List Char → List Char
  | _, [] => []
  | place, c :: rest =>
    if place = .outside ∧ (c = ' ' ∨ c = '\n') then unspaced (place.behind c) rest
    else c :: unspaced (place.behind c) rest

/-- A character that a text in a layout may have. -/
def Layout.Allows (layout : Layout) (c : Char) : Prop :=
  (' ' ≤ c ∧ c ≤ '~') ∨ (layout = .indented ∧ c = '\n')

/-- A stretch of a text in a layout, from one place to another, and what is kept of it. -/
structure Stretch (layout : Layout) (before : Place) (letters kept : List Char) (after : Place) :
    Prop where
  allowed : ∀ c ∈ letters, layout.Allows c
  keeps : ∀ rest, unspaced before (letters ++ rest) = kept ++ unspaced after rest

variable {layout : Layout} {place next last : Place} {letters more kept others : List Char}
  {c : Char}

/-! ## Texts without spaces -/

theorem length_unspaced_le (place : Place) (letters : List Char) :
    (unspaced place letters).length ≤ letters.length := by
  induction letters generalizing place with
  | nil => exact Nat.le_refl 0
  | cons c rest ih =>
    have shorter := ih (place.behind c)
    rw [unspaced]
    split
    · exact Nat.le_succ_of_le shorter
    · exact Nat.succ_le_succ shorter

/-- Where nothing is taken away there is no space and no line feed outside the strings. -/
theorem not_spaced_of_unspaced_eq {front back : List Char}
    (same : unspaced place letters = letters) (split : letters = front ++ c :: back)
    (outside : front.foldl Place.behind place = .outside) : c ≠ ' ' ∧ c ≠ '\n' := by
  subst split
  induction front generalizing place with
  | nil =>
    have here : place = .outside := outside
    rw [List.nil_append, unspaced] at same
    split at same
    · -- What is left would be longer than what it is left of.
      have shorter := length_unspaced_le (place.behind c) back
      rw [same, List.length_cons] at shorter
      omega
    · rename_i solid
      exact ⟨fun space => solid ⟨here, .inl space⟩, fun feed => solid ⟨here, .inr feed⟩⟩
  | cons d front ih =>
    rw [List.cons_append, unspaced] at same
    split at same
    · have shorter := length_unspaced_le (place.behind d) (front ++ c :: back)
      rw [same, List.length_cons] at shorter
      omega
    · exact ih outside (List.cons.inj same).2

theorem Reader.printable_of_isWordChar (word : isWordChar c = true) : ' ' ≤ c ∧ c ≤ '~' := by
  have between (low high : Char) (above : ' ' ≤ low) (below : high ≤ '~')
      (inside : low ≤ c ∧ c ≤ high) : ' ' ≤ c ∧ c ≤ '~' :=
    ⟨Char.le_trans above inside.1, Char.le_trans inside.2 below⟩
  simp only [isWordChar, Bool.or_eq_true, decide_eq_true_eq] at word
  rcases word with ((alphanumeric | rfl) | rfl) | rfl
  · change (c.isAlpha || c.isDigit) = true at alphanumeric
    rcases Bool.or_eq_true_iff.mp alphanumeric with alphabetic | digit
    · change (c.isUpper || c.isLower) = true at alphabetic
      rcases Bool.or_eq_true_iff.mp alphabetic with upper | lower
      · exact between 'A' 'Z' (by decide) (by decide) (of_decide_eq_true upper)
      · have ends := Bool.and_eq_true_iff.mp lower
        exact between 'a' 'z' (by decide) (by decide)
          (ends.imp of_decide_eq_true of_decide_eq_true)
    · have ends := Bool.and_eq_true_iff.mp digit
      exact between '0' '9' (by decide) (by decide)
        (ends.imp of_decide_eq_true of_decide_eq_true)
  all_goals decide

/-! ## Real numbers

A real number is written with characters of words only, whatever its digits are. -/

namespace Reader

open Number (Binary64 padded)

variable {digits : List Char} {point : Int}

theorem isWordChar_toDigits {n : Nat} : ∀ c ∈ Nat.toDigits 10 n, isWordChar c = true :=
  fun _ mem => isWordChar_of_digit (isDigit_toDigits mem)

theorem isWordChar_zeros (count : Nat) : ∀ c ∈ List.replicate count '0', isWordChar c = true := by
  intro c mem
  rw [List.eq_of_mem_replicate mem]
  rfl

theorem isWordChar_padded (width n : Nat) :
    ∀ c ∈ (padded width n).toList, isWordChar c = true := by
  rw [padded, String.toList_ofList]
  exact List.forall_mem_append.mpr ⟨isWordChar_zeros _, isWordChar_toDigits⟩

theorem isWordChar_positional (all : ∀ c ∈ digits, isWordChar c = true) :
    ∀ c ∈ Binary64.positional digits point, isWordChar c = true := by
  have sign : isWordChar '.' = true := rfl
  have zero : isWordChar '0' = true := rfl
  unfold Binary64.positional
  split
  · simp only [List.cons_append, List.forall_mem_cons, List.forall_mem_append]
    exact ⟨zero, sign, isWordChar_zeros _, all⟩
  split
  · simp only [List.forall_mem_append]
    exact ⟨⟨all, isWordChar_zeros _⟩, List.all_eq_true.mp rfl⟩
  · simp only [List.forall_mem_append, List.forall_mem_cons]
    exact ⟨fun c mem => all c (List.mem_of_mem_take mem), sign,
      fun c mem => all c (List.mem_of_mem_drop mem)⟩

theorem isWordChar_scientific (all : ∀ c ∈ digits, isWordChar c = true) :
    ∀ c ∈ Binary64.scientific digits point, isWordChar c = true := by
  have fraction : ∀ c ∈ (if digits.length ≤ 1 then [] else '.' :: digits.drop 1),
      isWordChar c = true := by
    split
    · exact fun c mem => by cases mem
    · exact List.forall_mem_cons.mpr ⟨rfl, fun c mem => all c (List.mem_of_mem_drop mem)⟩
  have sign : isWordChar (if point - 1 < 0 then '-' else '+') = true := by
    split <;> rfl
  unfold Binary64.scientific
  simp only [List.forall_mem_append, List.forall_mem_cons]
  exact ⟨⟨fun c mem => all c (List.mem_of_mem_take mem), fraction⟩, rfl, sign,
    isWordChar_padded 2 _⟩

theorem isWordChar_magnitude (mantissa : Nat) (exponent : Int) :
    ∀ c ∈ Binary64.magnitude mantissa exponent, isWordChar c = true := by
  unfold Binary64.magnitude
  split
  · exact List.all_eq_true.mp rfl
  · let digits := Nat.toDigits 10 (Binary64.shortest mantissa exponent).1
    have significant :
        ∀ c ∈ (digits.reverse.dropWhile (· = '0')).reverse, isWordChar c = true := by
      intro c mem
      have mem := (List.dropWhile_sublist _).subset (List.mem_reverse.mp mem)
      exact isWordChar_toDigits c (List.mem_reverse.mp mem)
    dsimp only
    split
    · exact isWordChar_scientific significant
    · exact isWordChar_positional significant

theorem isWordChar_real (x : Binary64) : ∀ c ∈ x.render, isWordChar c = true := by
  have sign (negative : Bool) : ∀ c ∈ (if negative then ['-'] else []), isWordChar c = true := by
    cases negative <;> exact List.all_eq_true.mp rfl
  cases x with
  | finite negative mantissa exponent =>
    exact List.forall_mem_append.mpr ⟨sign negative, isWordChar_magnitude mantissa exponent⟩
  | infinite negative =>
    exact List.forall_mem_append.mpr ⟨sign negative, List.all_eq_true.mp rfl⟩
  | nan => exact List.all_eq_true.mp rfl

end Reader

/-! ## Stretches -/

namespace Stretch

theorem append (first : Stretch layout place letters kept next)
    (second : Stretch layout next more others last) :
    Stretch layout place (letters ++ more) (kept ++ others) last where
  allowed := List.forall_mem_append.mpr ⟨first.allowed, second.allowed⟩
  keeps rest := by
    rw [List.append_assoc, first.keeps, second.keeps, List.append_assoc]

theorem nil (layout : Layout) (place : Place) : Stretch layout place [] [] place where
  allowed _ mem := by cases mem
  keeps _ := rfl

/-- A printable character but a quote or a space is kept, and leads into no string. -/
theorem mark (printable : ' ' ≤ c ∧ c ≤ '~') (unquoted : c ≠ '"') (unspaced : c ≠ ' ') :
    Stretch layout .outside [c] [c] .outside := by
  have feed : c ≠ '\n' := by
    rintro rfl
    exact absurd printable.1 (by decide)
  refine ⟨List.forall_mem_singleton.mpr (.inl printable), fun rest => ?_⟩
  simp [Json.unspaced, Place.behind, unspaced, feed, unquoted]

/-- A space or line feed of the layout is not kept. -/
theorem blank (allowed : layout.Allows c) (isBlank : c = ' ' ∨ c = '\n') :
    Stretch layout .outside [c] [] .outside := by
  refine ⟨List.forall_mem_singleton.mpr allowed, fun rest => ?_⟩
  rcases isBlank with rfl | rfl <;> simp [unspaced, Place.behind]

theorem gap (layout : Layout) (level : Nat) :
    Stretch layout .outside (layout.gap level) [] .outside := by
  cases layout with
  | compact => exact nil _ _
  | indented =>
    have spaces (count : Nat) :
        Stretch .indented .outside (List.replicate count ' ') [] .outside := by
      induction count with
      | zero => exact nil _ _
      | succ count ih => exact (blank (.inl (by decide)) (.inl rfl)).append ih
    exact (blank (.inr ⟨rfl, rfl⟩) (.inr rfl)).append (spaces _)

/-- A bracket or comma, with a new line behind it or not. -/
theorem markGap (printable : ' ' ≤ c ∧ c ≤ '~') (unquoted : c ≠ '"') (unspaced : c ≠ ' ')
    (level : Nat) : Stretch layout .outside (c :: layout.gap level) [c] .outside :=
  (mark printable unquoted unspaced).append (gap layout level)

theorem colon (layout : Layout) : Stretch layout .outside layout.colon [':'] .outside := by
  have mark : Stretch layout .outside [':'] [':'] .outside :=
    mark (by decide) (by decide) (by decide)
  cases layout with
  | compact => exact mark
  | indented => exact mark.append (blank (.inl (by decide)) (.inl rfl))

/-! Inside a string. -/

/-- A printable character that ends nothing. -/
theorem plain (printable : ' ' ≤ c ∧ c ≤ '~') (unquoted : c ≠ '"') (slashless : c ≠ '\\') :
    Stretch layout .inside [c] [c] .inside := by
  refine ⟨List.forall_mem_singleton.mpr (.inl printable), fun rest => ?_⟩
  simp [unspaced, Place.behind, unquoted, slashless]

/-- A character behind a backslash, be it a quote. -/
theorem escape (printable : ' ' ≤ c ∧ c ≤ '~') :
    Stretch layout .inside ['\\', c] ['\\', c] .inside := by
  refine ⟨List.forall_mem_cons.mpr ⟨.inl (by decide),
    List.forall_mem_singleton.mpr (.inl printable)⟩, fun rest => ?_⟩
  simp [unspaced, Place.behind]

theorem hexDigit (n : Nat) :
    Stretch layout .inside [Json.hexDigit n] [Json.hexDigit n] .inside := by
  have digits : ∀ d < 16, (' ' ≤ Nat.digitChar d ∧ Nat.digitChar d ≤ '~') ∧
      Nat.digitChar d ≠ '"' ∧ Nat.digitChar d ≠ '\\' := by decide
  obtain ⟨printable, unquoted, slashless⟩ := digits (n % 16) (Nat.mod_lt n (by decide))
  exact plain printable unquoted slashless

theorem unitEscape (n : Nat) :
    Stretch layout .inside (Json.unitEscape n) (Json.unitEscape n) .inside :=
  (escape (c := 'u') (by decide)).append
    ((hexDigit _).append ((hexDigit _).append ((hexDigit _).append (hexDigit n))))

theorem glyph (g : Glyph) : Stretch layout .inside g.render g.render .inside := by
  cases g with
  | surrogate half => exact unitEscape _
  | char c =>
    by_cases short : c = '"' ∨ c = '\\' ∨ c = '\n' ∨ c = '\r' ∨ c = '\t' ∨ c = '\x08' ∨ c = '\x0c'
    · rcases short with rfl | rfl | rfl | rfl | rfl | rfl | rfl <;> exact escape (by decide)
    · simp only [not_or] at short
      obtain ⟨quote, backslash, newline, feed, tab, back, form⟩ := short
      simp only [Glyph.render, quote, backslash, newline, feed, tab, back, form, if_false]
      split
      · rename_i printable
        exact plain printable quote backslash
      · unfold charEscape
        split
        · exact unitEscape _
        · exact (unitEscape _).append (unitEscape _)

theorem string (t : Text) : Stretch layout .outside t.render t.render .outside := by
  have opening : Stretch layout .outside ['"'] ['"'] .inside :=
    ⟨List.forall_mem_singleton.mpr (.inl (by decide)), fun _ => rfl⟩
  have closing : Stretch layout .inside ['"'] ['"'] .outside :=
    ⟨List.forall_mem_singleton.mpr (.inl (by decide)), fun _ => rfl⟩
  have contents : Stretch layout .inside (t.flatMap Glyph.render) (t.flatMap Glyph.render)
      .inside := by
    induction t with
    | nil => exact nil _ _
    | cons g rest ih => exact (glyph g).append ih
  exact (opening.append contents).append closing

/-! Numbers and words, which have characters of words only. -/

theorem word (all : ∀ c ∈ letters, Reader.isWordChar c = true) :
    Stretch layout .outside letters letters .outside := by
  induction letters with
  | nil => exact nil _ _
  | cons c rest ih =>
    obtain ⟨first, behind⟩ := List.forall_mem_cons.mp all
    have apart (other : Char) (outside : Reader.isWordChar other = false) : c ≠ other := by
      rintro rfl
      rw [first] at outside
      cases outside
    exact (mark (Reader.printable_of_isWordChar first) (apart '"' rfl) (apart ' ' rfl)).append
      (ih behind)

end Stretch

/-! ## Documents -/

mutual

/-- Of the text of a value its compact text is kept. -/
theorem stretch_render (layout : Layout) (level : Nat) : ∀ (v : Json) (compact : Nat),
    Stretch layout .outside (render layout level v) (render .compact compact v) .outside
  | .null, _ => by
    rw [render, render]
    exact .word (List.all_eq_true.mp rfl)
  | .bool true, _ => by
    rw [render, render]
    exact .word (List.all_eq_true.mp rfl)
  | .bool false, _ => by
    rw [render, render]
    exact .word (List.all_eq_true.mp rfl)
  | .int n, _ => by
    rw [render, render]
    exact .word fun _ mem => Reader.isWordChar_intText mem
  | .real x, _ => by
    rw [render, render]
    exact .word (Reader.isWordChar_real x)
  | .string t, _ => by
    rw [render, render]
    exact .string t
  | .array [], _ => by
    rw [render, render]
    exact (Stretch.mark (by decide) (by decide) (by decide)).append
      (.mark (by decide) (by decide) (by decide))
  | .array (item :: rest), compact => by
    have opening : Stretch layout .outside ('[' :: layout.gap (level + 1)) ['['] .outside :=
      .markGap (by decide) (by decide) (by decide) _
    have closing : Stretch layout .outside [']'] [']'] .outside :=
      .mark (by decide) (by decide) (by decide)
    have first := stretch_render layout (level + 1) item (compact + 1)
    have others := stretch_renderItems layout (level + 1) rest (compact + 1)
    rw [render, render]
    exact (((opening.append first).append others).append (.gap layout level)).append closing
  | .object [], _ => by
    rw [render, render]
    exact (Stretch.mark (by decide) (by decide) (by decide)).append
      (.mark (by decide) (by decide) (by decide))
  | .object ((key, value) :: rest), compact => by
    have opening : Stretch layout .outside ('{' :: layout.gap (level + 1)) ['{'] .outside :=
      .markGap (by decide) (by decide) (by decide) _
    have closing : Stretch layout .outside ['}'] ['}'] .outside :=
      .mark (by decide) (by decide) (by decide)
    have keyed := (opening.append (.string key)).append (.colon layout)
    have first := stretch_render layout (level + 1) value (compact + 1)
    have others := stretch_renderFields layout (level + 1) rest (compact + 1)
    rw [render, render]
    exact (((keyed.append first).append others).append (.gap layout level)).append closing

theorem stretch_renderItems (layout : Layout) (level : Nat) : ∀ (items : List Json) (compact : Nat),
    Stretch layout .outside (renderItems layout level items) (renderItems .compact compact items)
      .outside
  | [], _ => .nil _ _
  | item :: rest, compact => by
    have comma : Stretch layout .outside (',' :: layout.gap level) [','] .outside :=
      .markGap (by decide) (by decide) (by decide) _
    rw [renderItems, renderItems]
    exact (comma.append (stretch_render layout level item compact)).append
      (stretch_renderItems layout level rest compact)

theorem stretch_renderFields (layout : Layout) (level : Nat) :
    ∀ (fields : List (Text × Json)) (compact : Nat),
      Stretch layout .outside (renderFields layout level fields)
        (renderFields .compact compact fields) .outside
  | [], _ => .nil _ _
  | (key, value) :: rest, compact => by
    have comma : Stretch layout .outside (',' :: layout.gap level) [','] .outside :=
      .markGap (by decide) (by decide) (by decide) _
    have keyed := (comma.append (.string key)).append (.colon layout)
    rw [renderFields, renderFields]
    exact (keyed.append (stretch_render layout level value compact)).append
      (stretch_renderFields layout level rest compact)

end

theorem unspaced_render (layout : Layout) (document : Json) :
    unspaced .outside (render layout 0 document) = render .compact 0 document := by
  have keeps := (stretch_render layout 0 document 0).keeps []
  rw [List.append_nil] at keeps
  rw [keeps]
  exact List.append_nil _

/-- A document without the spaces and line feeds outside its strings is the compact document, and
has no text if that has none. -/
theorem unspaced_print (layout : Layout) (document : Json) :
    (print layout document).map (fun text => unspaced .outside text.toList) =
      (print .compact document).map String.toList := by
  unfold print
  cases document.hasOverlong with
  | true => rfl
  | false =>
    refine congrArg Except.ok ?_
    change unspaced .outside (String.ofList (render layout 0 document)).toList = _
    rw [String.toList_ofList, String.toList_ofList]
    exact unspaced_render layout document

theorem allows_print {layout : Layout} {document : Json} {text : String}
    (printed : print layout document = .ok text) : ∀ c ∈ text.toList, layout.Allows c := by
  rw [toList_of_print printed]
  exact (stretch_render layout 0 document 0).allowed

end GlobalMap.Json
