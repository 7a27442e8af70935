import GlobalMap.Json.Printer
import GlobalMap.Json.Reader

/-! What the reader makes of strings and whole numbers as they are written. An escape
is undone one UTF-16 unit at a time, and the two units of a pair join to one character
again; digits add up to the number they were taken from, if there are not too many. -/
namespace GlobalMap.Json

/-- No surrogate stands alone in a string. -/
def Text.Whole (t : Text) : Prop :=
  ∀ glyph ∈ t, glyph.char?.isSome

namespace Reader

variable {frames : List Frame} {role : Role} {contents : Text} {c : Char}

theorem ok_bind {α β : Type} (a : α) (f : α → Except Fault β) : (Except.ok a).bind f = f a := rfl

/-- The state that some characters lead to. -/
def run (s : State) (letters : List Char) : Except Fault State :=
  letters.foldlM step s

@[simp] theorem run_nil (s : State) : run s [] = .ok s := rfl

theorem run_cons (s : State) (c : Char) (letters : List Char) :
    run s (c :: letters) = (step s c).bind (run · letters) := by
  rw [run, List.foldlM_cons]
  rfl

theorem run_append (s : State) (letters more : List Char) :
    run s (letters ++ more) = (run s letters).bind (run · more) := by
  rw [run, List.foldlM_append]
  rfl

section Strings

theorem hexValue?_hexDigit (n : Nat) : hexValue? (hexDigit n) = some (n % 16) := by
  have digits : ∀ d < 16, hexValue? (Nat.digitChar d) = some d := by decide
  exact digits (n % 16) (Nat.mod_lt n (by decide))

/-- An escaped unit is read as the unit that it was written for. -/
theorem run_unitEscape {unit : Nat} (small : unit < 0x10000) :
    run ⟨frames, .string role contents .none⟩ (unitEscape unit) =
      .ok ⟨frames, .string role (pushUnit contents unit) .none⟩ := by
  have whole : 16 * (16 * (16 * (unit / 4096 % 16) + unit / 256 % 16) + unit / 16 % 16) +
      unit % 16 = unit := by omega
  simp [unitEscape, run_cons, ok_bind, step, orMalformed, inString, hexValue?_hexDigit, whole]

/-- The second half of a pair alone looks back. -/
theorem pushUnit_of_lt {unit : Nat} (small : unit < 0xdc00) :
    pushUnit contents unit = unitGlyph unit :: contents := by
  have first : ¬ 0xdc00 ≤ unit := by omega
  unfold pushUnit
  split
  · rw [if_neg fun pair => first pair.2.1]
  · rfl

theorem toNat_lt_or_gt (c : Char) :
    c.toNat < 0xd800 ∨ (0xdfff < c.toNat ∧ c.toNat < 0x110000) := c.valid

/-- A character is no half of a pair. -/
theorem pushUnit_char (contents : Text) (c : Char) :
    pushUnit contents c.toNat = .char c :: contents := by
  have apart := toNat_lt_or_gt c
  have alone : unitGlyph c.toNat = .char c := by
    rw [unitGlyph, if_neg (by omega), Char.ofNat_toNat]
  unfold pushUnit
  split
  · rw [if_neg (by omega), alone]
  · rw [alone]

/-- Two halves make the character that they were taken from. -/
theorem pushUnit_pair {k : Nat} (small : k < 0x100000) :
    pushUnit (pushUnit contents (0xd800 + k / 0x400)) (0xdc00 + k % 0x400) =
      .char (Char.ofNat (0x10000 + k)) :: contents := by
  have half : (Fin.ofNat 0x800 (0xd800 + k / 0x400 - 0xd800)).val = k / 0x400 := by
    rw [Fin.val_ofNat]
    omega
  have first : pushUnit contents (0xd800 + k / 0x400) =
      .surrogate (Fin.ofNat 0x800 (0xd800 + k / 0x400 - 0xd800)) :: contents := by
    rw [pushUnit_of_lt (by omega), unitGlyph, if_pos (by omega)]
  have joined : 0x10000 + k / 0x400 * 0x400 + (0xdc00 + k % 0x400 - 0xdc00) = 0x10000 + k := by
    omega
  rw [first, pushUnit, half, if_pos (by omega), joined]

theorem run_charEscape (contents : Text) (c : Char) :
    run ⟨frames, .string role contents .none⟩ (charEscape c) =
      .ok ⟨frames, .string role (.char c :: contents) .none⟩ := by
  unfold charEscape
  split
  · rename_i small
    rw [run_unitEscape small, pushUnit_char]
  · rename_i large
    have apart := toNat_lt_or_gt c
    have same : 0x10000 + (c.toNat - 0x10000) = c.toNat := by omega
    rw [run_append, run_unitEscape (by omega), ok_bind, run_unitEscape (by omega),
      pushUnit_pair (by omega), same, Char.ofNat_toNat]

/-- A character of a string is read as itself. -/
theorem run_glyph (contents : Text) (c : Char) :
    run ⟨frames, .string role contents .none⟩ (Glyph.render (.char c)) =
      .ok ⟨frames, .string role (.char c :: contents) .none⟩ := by
  by_cases short : c = '"' ∨ c = '\\' ∨ c = '\n' ∨ c = '\r' ∨ c = '\t' ∨ c = '\x08' ∨ c = '\x0c'
  · rcases short with rfl | rfl | rfl | rfl | rfl | rfl | rfl <;> rfl
  · simp only [not_or] at short
    obtain ⟨quote, backslash, newline, feed, tab, back, form⟩ := short
    simp only [Glyph.render, quote, backslash, newline, feed, tab, back, form, if_false]
    split
    · rename_i printable
      have plain : ¬ c < ' ' := Char.not_lt.mpr printable.1
      simp only [run_cons, step, inString, quote, backslash, plain, if_false]
      rfl
    · exact run_charEscape contents c

/-- A string without lone surrogates is read as itself. -/
theorem run_glyphs (t : Text) (whole : t.Whole) (contents : Text) :
    run ⟨frames, .string role contents .none⟩ (t.flatMap Glyph.render) =
      .ok ⟨frames, .string role (t.reverse ++ contents) .none⟩ := by
  induction t generalizing contents with
  | nil => rfl
  | cons glyph rest ih =>
    obtain ⟨first, behind⟩ := List.forall_mem_cons.mp whole
    obtain ⟨c, found⟩ := Option.isSome_iff_exists.mp first
    cases glyph with
    | surrogate half => cases found
    | char c =>
      rw [List.flatMap_cons, run_append, run_glyph, ok_bind, ih behind,
        List.reverse_cons, List.append_assoc]
      rfl

/-- What stands behind the opening quote of a string closes it. -/
theorem run_string (t : Text) (whole : t.Whole) :
    run ⟨frames, .string role [] .none⟩ (t.flatMap Glyph.render ++ ['"']) =
      .ok (closeString frames role t.reverse) := by
  rw [run_append, run_glyphs t whole, List.append_nil, ok_bind]
  rfl

end Strings

section Numbers

theorem decimal_toDigits (n : Nat) : decimal (Nat.toDigits 10 n) = n := by
  rw [decimal, ← Nat.ofDigitChars_eq_foldl, Nat.ofDigitChars_ten_toDigits]

theorem isDigit_toDigits {n : Nat} (mem : c ∈ Nat.toDigits 10 n) : c.isDigit = true :=
  Nat.isDigit_of_mem_toDigits (by decide) (by decide) mem

/-- Digits of a positive number do not start with zero. -/
theorem head_toDigits (n : Nat) (positive : 0 < n) :
    ∃ c rest, Nat.toDigits 10 n = c :: rest ∧ c ≠ '0' := by
  induction n using Nat.strongRecOn with
  | ind n ih =>
    rw [Nat.toDigits_eq_if (by decide)]
    by_cases small : n < 10
    · have digits : ∀ d < 10, 0 < d → Nat.digitChar d ≠ '0' := by decide
      exact ⟨n.digitChar, [], if_pos small, digits n small positive⟩
    · obtain ⟨c, rest, starts, nonzero⟩ := ih (n / 10) (by omega) (by omega)
      rw [if_neg small, starts]
      exact ⟨c, rest ++ [(n % 10).digitChar], rfl, nonzero⟩

theorem isWhole_toDigits (n : Nat) : isWhole (Nat.toDigits 10 n) = true := by
  rcases Nat.eq_zero_or_pos n with rfl | positive
  · rfl
  · obtain ⟨c, rest, starts, nonzero⟩ := head_toDigits n positive
    rw [starts]
    cases rest with
    | nil => simp [isWhole, nonzero]
    | cons next rest => simp [isWhole, nonzero]

theorem takeWhile_toDigits (n : Nat) :
    (Nat.toDigits 10 n).takeWhile Char.isDigit = Nat.toDigits 10 n := by
  have cut : (Nat.toDigits 10 n ++ []).takeWhile Char.isDigit = Nat.toDigits 10 n ++ [] :=
    List.takeWhile_append_of_pos fun _ mem => isDigit_toDigits mem
  rwa [List.append_nil] at cut

theorem dropWhile_toDigits (n : Nat) : (Nat.toDigits 10 n).dropWhile Char.isDigit = [] := by
  have cut : (Nat.toDigits 10 n ++ []).dropWhile Char.isDigit = [] :=
    List.dropWhile_append_of_pos fun _ mem => isDigit_toDigits mem
  rwa [List.append_nil] at cut

theorem unsigned?_toDigits (negative : Bool) (n : Nat) :
    unsigned? negative (Nat.toDigits 10 n) = some (.int (if negative then -(n : Int) else n)) := by
  simp [unsigned?, takeWhile_toDigits, dropWhile_toDigits, isWhole_toDigits, decimal_toDigits]

/-- A digit starts none of the words. -/
theorem spelled?_of_digit {rest : List Char} (digit : c.isDigit = true) :
    spelled? (c :: rest) = unsigned? false (c :: rest) := by
  have apart : ∀ (other : Char) (letters : List Char), other.isDigit = false →
      c :: rest ≠ other :: letters := by
    intro other letters none same
    cases same
    rw [digit] at none
    cases none
  have nan : c :: rest ≠ "NaN".toList := apart 'N' ['a', 'N'] rfl
  have infinity : c :: rest ≠ "Infinity".toList :=
    apart 'I' ['n', 'f', 'i', 'n', 'i', 't', 'y'] rfl
  have minusInfinity : c :: rest ≠ "-Infinity".toList :=
    apart '-' ['I', 'n', 'f', 'i', 'n', 'i', 't', 'y'] rfl
  unfold spelled?
  rw [if_neg (apart 'n' _ rfl), if_neg (apart 't' _ rfl), if_neg (apart 'f' _ rfl), if_neg nan,
    if_neg infinity, if_neg minusInfinity]
  split
  · rename_i same
    exact absurd same (apart '-' _ rfl)
  · rfl

/-- Behind a minus sign a digit starts no word either. -/
theorem spelled?_of_minus {rest : List Char} (digit : c.isDigit = true) :
    spelled? ('-' :: c :: rest) = unsigned? true (c :: rest) := by
  have apart : ∀ (other : Char) (letters : List Char), '-' ≠ other →
      '-' :: c :: rest ≠ other :: letters :=
    fun _ _ away same => away (List.head_eq_of_cons_eq same)
  have nan : '-' :: c :: rest ≠ "NaN".toList := apart 'N' ['a', 'N'] (by decide)
  have infinity : '-' :: c :: rest ≠ "Infinity".toList :=
    apart 'I' ['n', 'f', 'i', 'n', 'i', 't', 'y'] (by decide)
  have minusInfinity : '-' :: c :: rest ≠ "-Infinity".toList := by
    intro same
    have spelled : '-' :: c :: rest = ['-', 'I', 'n', 'f', 'i', 'n', 'i', 't', 'y'] := same
    cases spelled
    cases digit
  unfold spelled?
  rw [if_neg (apart 'n' _ (by decide)), if_neg (apart 't' _ (by decide)),
    if_neg (apart 'f' _ (by decide)), if_neg nan, if_neg infinity, if_neg minusInfinity]
  rfl

theorem spelled?_intText (n : Int) : spelled? (intText n) = some (.int n) := by
  have nonempty : Nat.toDigits 10 n.natAbs ≠ [] := Nat.toDigits_ne_nil
  obtain ⟨c, rest, starts⟩ := List.exists_cons_of_ne_nil nonempty
  have digit : c.isDigit = true := isDigit_toDigits (starts ▸ List.mem_cons_self)
  unfold intText
  split
  · have same : (-(n.natAbs : Int)) = n := by omega
    rw [starts, spelled?_of_minus digit, ← starts, unsigned?_toDigits, if_pos rfl, same]
  · have same : (n.natAbs : Int) = n := by omega
    rw [starts, spelled?_of_digit digit, ← starts, unsigned?_toDigits, if_neg Bool.false_ne_true,
      same]

/-- A number is too long to be written when its digits are too many. -/
theorem length_toDigits_le_iff (n : Int) :
    (Nat.toDigits 10 n.natAbs).length ≤ Number.maxDigits ↔ Number.isOverlong n = false := by
  have counted : ∀ most, 0 < most →
      ((Nat.toDigits 10 n.natAbs).length ≤ most ↔ n.natAbs < Number.firstBeyond most) :=
    fun _ positive => Nat.length_toDigits_le_iff (by decide) positive
  rw [counted _ (by decide), Number.isOverlong, decide_eq_false_iff_not, Nat.not_le]

theorem withoutSign_intText (n : Int) : withoutSign (intText n) = Nat.toDigits 10 n.natAbs := by
  unfold intText
  split
  · rfl
  · unfold withoutSign
    split
    · rename_i same
      have minus : '-'.isDigit = true := isDigit_toDigits (same ▸ List.mem_cons_self)
      cases minus
    · rfl

/-- A whole number that has not too many digits is read as itself. -/
theorem valueOf_intText {n : Int} (short : Number.isOverlong n = false) :
    valueOf (intText n) = .ok (.int n) := by
  have few : ¬Number.maxDigits < (Nat.toDigits 10 n.natAbs).length :=
    Nat.not_lt.mpr ((length_toDigits_le_iff n).mpr short)
  have fits : overlong? (withoutSign (intText n)) = none := by
    rw [withoutSign_intText, overlong?, takeWhile_toDigits, if_neg fun much => few much.2.1]
  rw [valueOf, fits, spelled?_intText]
  rfl

theorem isWordChar_of_digit (digit : c.isDigit = true) : isWordChar c = true := by
  simp [isWordChar, Char.isAlphanum, digit]

theorem isWordChar_intText {n : Int} (mem : c ∈ intText n) : isWordChar c = true := by
  unfold intText at mem
  split at mem
  · rcases List.mem_cons.mp mem with rfl | mem
    · rfl
    · exact isWordChar_of_digit (isDigit_toDigits mem)
  · exact isWordChar_of_digit (isDigit_toDigits mem)

theorem intText_ne_nil (n : Int) : intText n ≠ [] := by
  unfold intText
  split
  · exact List.cons_ne_nil _ _
  · exact Nat.toDigits_ne_nil

end Numbers

end Reader

end GlobalMap.Json
