import GlobalMap.Proofs.TypeGraph.Flattening

/-! Questions to a flattener, one after the other. Every answer is the one that
plain expansion gives to the same question asked alone, so it depends neither on
the questions before it nor on their order. -/
namespace GlobalMap.Flattener

variable {structures : OffsetMap Structure} {f : Flattener}

/-- What a flattener can be asked for. -/
inductive Question where
  /-- The members of the structure stored at an offset. -/
  | members (offset : Int)
  /-- Every structure with its members. -/
  | all

inductive Answer where
  | members (fields : List Member)
  /-- Nothing is stored at the offset. -/
  | unknown (offset : Int)
  | all (flat : OffsetMap Structure)

/-- Asks a question, with what has been expanded by then. A question about an
offset that is not stored leaves the flattener as it is. -/
def ask (structures : OffsetMap Structure) (f : Flattener) : Question → Answer × Flattener
  | .members offset =>
    match f.membersAt? structures offset with
    | some (fields, after) => (.members fields, after)
    | none => (.unknown offset, f)
  | .all =>
    let (flat, after) := f.flatten structures
    (.all flat, after)

/-- Asks questions in order. -/
def askAll (structures : OffsetMap Structure) (f : Flattener) : List Question →
    List Answer × Flattener
  | [] => ([], f)
  | question :: rest =>
    let (answer, after) := f.ask structures question
    let (answers, last) := askAll structures after rest
    (answer :: answers, last)

/-- A structure with the plain tree of its identity. -/
def flattened (structures : OffsetMap Structure) (s : Structure) : Structure :=
  { s with members := GlobalMap.expand structures [] s.identity }

/-- The answer of the recursion that keeps nothing. -/
def plainAnswer (structures : OffsetMap Structure) : Question → Answer
  | .members offset =>
    match structures[offset]? with
    | some s => .members (GlobalMap.expand structures [] s.identity)
    | none => .unknown offset
  | .all => .all (structures.map fun _ s => flattened structures s)

theorem sound_empty : Sound structures {} := by
  intro identity tree kept
  cases kept

theorem expand_root (sound : Sound structures f) (identity : Int) :
    Faithful structures [] identity (f.expand structures [] identity) :=
  expand_faithful (by simp) (by simp) sound

theorem flattenRows_plain (rows : List (Int × Structure)) (f : Flattener)
    (sound : Sound structures f) :
    (f.flattenRows structures rows).1 =
        rows.foldr (fun row flat => flat.insert row.1 (flattened structures row.2)) ∅ ∧
      Sound structures (f.flattenRows structures rows).2 := by
  induction rows generalizing f with
  | nil => exact ⟨rfl, sound⟩
  | cons row rest ih =>
    obtain ⟨offset, s⟩ := row
    have first := expand_root sound s.identity
    obtain ⟨flat, last⟩ := ih _ first.sound
    refine ⟨?_, last⟩
    simp only [flattenRows, List.foldr_cons, flat, first.members, flattened]

/-- Every structure is given its plain tree, and keeps everything else. -/
theorem flatten_plain (sound : Sound structures f) :
    (f.flatten structures).1 = structures.map (fun _ s => flattened structures s) ∧
      Sound structures (f.flatten structures).2 := by
  obtain ⟨flat, last⟩ := flattenRows_plain structures.toList f sound
  exact ⟨flat.trans (OffsetMap.foldr_insert_toList structures (flattened structures)), last⟩

/-- The members of a stored structure are its plain tree. -/
theorem membersAt?_plain {offset : Int} {s : Structure} (sound : Sound structures f)
    (held : structures[offset]? = some s) :
    ∃ after, f.membersAt? structures offset =
        some (GlobalMap.expand structures [] s.identity, after) ∧
      Sound structures after := by
  have root := expand_root sound s.identity
  refine ⟨_, ?_, root.sound⟩
  simp only [membersAt?, held, Option.map_some, root.members]

/-- One question is answered plainly, and what is kept stays sound. -/
theorem ask_plain (sound : Sound structures f) (question : Question) :
    (f.ask structures question).1 = plainAnswer structures question ∧
      Sound structures (f.ask structures question).2 := by
  cases question with
  | members offset =>
    cases held : structures[offset]? with
    | none => simp only [ask, membersAt?, held, Option.map_none, plainAnswer, sound, and_self]
    | some s =>
      obtain ⟨after, answered, last⟩ := membersAt?_plain sound held
      simp only [ask, answered, plainAnswer, held, last, and_self]
  | all =>
    obtain ⟨flat, last⟩ := flatten_plain sound
    refine ⟨?_, last⟩
    simp only [ask, plainAnswer, flat]

theorem askAll_sound (questions : List Question) (f : Flattener) (sound : Sound structures f) :
    (f.askAll structures questions).1 = questions.map (plainAnswer structures) ∧
      Sound structures (f.askAll structures questions).2 := by
  induction questions generalizing f with
  | nil => exact ⟨rfl, sound⟩
  | cons question rest ih =>
    obtain ⟨answer, after⟩ := ask_plain sound question
    obtain ⟨answers, last⟩ := ih _ after
    refine ⟨?_, last⟩
    simp only [askAll, answer, answers, List.map_cons]

/-- **Kept trees never show.** Whatever is asked of a new flattener, in whatever
order and however often, every answer is the plain one. -/
theorem askAll_eq_plain (structures : OffsetMap Structure) (questions : List Question) :
    (askAll structures {} questions).1 = questions.map (plainAnswer structures) :=
  (askAll_sound questions {} sound_empty).1

end GlobalMap.Flattener
