import GlobalMap.TypeGraph.OffsetMap

/-! Finite maps and the rows that they are stored from and listed as. A row of a
list counts for its key only where no other row of the key comes behind it. -/
namespace GlobalMap.OffsetMap

variable {α β : Type} {m : OffsetMap α} {key : Int} {value : α}

theorem mem_of_lookup (held : m[key]? = some value) : key ∈ m := by
  rw [Std.ExtTreeMap.mem_iff_isSome_getElem?, held]
  rfl

theorem not_mem_of_lookup (missing : m[key]? = none) : key ∉ m := by
  rw [Std.ExtTreeMap.mem_iff_isSome_getElem?, missing]
  exact Bool.false_ne_true

theorem exists_lookup (stored : key ∈ m) : ∃ value, m[key]? = some value :=
  Option.isSome_iff_exists.mp (Std.ExtTreeMap.mem_iff_isSome_getElem?.mp stored)

theorem nodup_rows (m : OffsetMap α) : (m.toList.map Prod.fst).Nodup := by
  rw [Std.ExtTreeMap.map_fst_toList_eq_keys]
  exact Std.ExtTreeMap.nodup_keys

/-- Looking for the row of a key finds what is stored under the key. -/
theorem find?_toList (m : OffsetMap α) (key : Int) :
    (m.toList.find? fun row => row.1 == key) = m[key]?.map fun value => (key, value) := by
  have same : (fun row : Int × α => row.1 == key) = fun row => compare row.1 key == .eq := by
    funext row
    rw [Bool.eq_iff_iff, beq_iff_eq, beq_iff_eq, Std.compare_eq_iff_eq]
  rw [same]
  cases held : m[key]? with
  | none => exact Std.ExtTreeMap.find?_toList_eq_none_iff_not_mem.mpr (not_mem_of_lookup held)
  | some value =>
    exact Std.ExtTreeMap.find?_toList_eq_some_iff_getKey?_eq_some_and_getElem?_eq_some.mpr
      ⟨Std.ExtTreeMap.getKey?_eq_some (mem_of_lookup held), held⟩

/-- The value of the last row under a key. -/
def lastAt (rows : List (Int × α)) (key : Int) : Option α :=
  (rows.reverse.find? fun row => row.1 == key).map Prod.snd

theorem mem_of_lastAt {rows : List (Int × α)} (last : lastAt rows key = some value) :
    (key, value) ∈ rows := by
  obtain ⟨row, found, rfl⟩ := Option.map_eq_some_iff.mp last
  have mem := List.mem_reverse.mp (List.mem_of_find?_eq_some found)
  have here := List.find?_some (p := fun row : Int × α => row.1 == key) found
  rwa [← beq_iff_eq.mp here]

theorem lastAt_append (rows later : List (Int × α)) (key : Int) :
    lastAt (rows ++ later) key = (lastAt later key).or (lastAt rows key) := by
  rw [lastAt, List.reverse_append, List.find?_append, Option.map_or]
  rfl

theorem getElem?_insertMany (rows : List (Int × α)) (m : OffsetMap α) (key : Int) :
    (m.insertMany rows)[key]? = (lastAt rows key).or m[key]? := by
  induction rows generalizing m with
  | nil => rfl
  | cons row rest ih =>
    have split : row :: rest = [row] ++ rest := rfl
    rw [Std.ExtTreeMap.insertMany_cons, ih, split, lastAt_append, Std.ExtTreeMap.getElem?_insert,
      Option.or_assoc]
    by_cases same : row.1 = key
    · have found : lastAt [row] key = some row.2 := by simp [lastAt, same]
      rw [found, if_pos (Std.compare_eq_iff_eq.mpr same)]
      rfl
    · have missing : lastAt [row] key = none := by simp [lastAt, same]
      rw [missing, if_neg fun equal => same (Std.compare_eq_iff_eq.mp equal)]
      rfl

/-- Rows that are stored from the last to the first, so that the first one of a key
counts. -/
theorem getElem?_foldr_insert (rows : List (Int × α)) (g : α → β) (key : Int) :
    (rows.foldr (fun row (m : OffsetMap β) => m.insert row.1 (g row.2)) ∅)[key]? =
      (rows.find? fun row => row.1 == key).map fun row => g row.2 := by
  induction rows with
  | nil => simp
  | cons row rest ih =>
    rw [List.foldr_cons, Std.ExtTreeMap.getElem?_insert, List.find?_cons]
    by_cases same : row.1 = key
    · rw [if_pos (Std.compare_eq_iff_eq.mpr same), beq_iff_eq.mpr same]
      rfl
    · rw [if_neg fun equal => same (Std.compare_eq_iff_eq.mp equal), beq_eq_false_iff_ne.mpr same,
        ih]

theorem foldr_insert_toList (m : OffsetMap α) (g : α → β) :
    m.toList.foldr (fun row (acc : OffsetMap β) => acc.insert row.1 (g row.2)) ∅ =
      m.map fun _ => g := by
  apply Std.ExtTreeMap.ext_getElem?
  intro key
  rw [getElem?_foldr_insert, find?_toList, Std.ExtTreeMap.getElem?_map, Option.map_map]
  rfl

section Distinct

variable {rows : List (Int × α)}

/-- Of rows under different keys each one is stored, and nothing else is. -/
theorem getElem?_insertMany_empty_iff (distinct : (rows.map Prod.fst).Nodup) :
    ((∅ : OffsetMap α).insertMany rows)[key]? = some value ↔ (key, value) ∈ rows := by
  have apart : rows.Pairwise fun a b => ¬ compare a.1 b.1 = .eq := by
    refine (List.pairwise_map.mp distinct).imp ?_
    exact fun different equal => different (Std.compare_eq_iff_eq.mp equal)
  have stored {value : α} (mem : (key, value) ∈ rows) :
      ((∅ : OffsetMap α).insertMany rows)[key]? = some value :=
    Std.ExtTreeMap.getElem?_insertMany_list_of_mem Std.ReflCmp.compare_self apart mem
  refine ⟨fun held => ?_, stored⟩
  rw [getElem?_insertMany, Std.ExtTreeMap.getElem?_empty, Option.or_none] at held
  exact mem_of_lastAt held

/-- Rows under different keys may be stored in any order. -/
theorem insertMany_perm {others : List (Int × α)} (distinct : (rows.map Prod.fst).Nodup)
    (perm : others.Perm rows) :
    (∅ : OffsetMap α).insertMany others = (∅ : OffsetMap α).insertMany rows := by
  have apart : (others.map Prod.fst).Nodup := (perm.map Prod.fst).nodup_iff.mpr distinct
  apply Std.ExtTreeMap.ext_getElem?
  intro key
  apply Option.ext
  intro value
  rw [getElem?_insertMany_empty_iff apart, getElem?_insertMany_empty_iff distinct, perm.mem_iff]

theorem toList_insertMany_perm (distinct : (rows.map Prod.fst).Nodup) :
    ((∅ : OffsetMap α).insertMany rows).toList.Perm rows := by
  have rowsApart : rows.Nodup := (List.pairwise_map.mp distinct).imp fun different equal =>
    different (congrArg Prod.fst equal)
  have listApart := (List.pairwise_map.mp (nodup_rows ((∅ : OffsetMap α).insertMany rows))).imp
    fun different equal => different (congrArg Prod.fst equal)
  apply (List.perm_ext_iff_of_nodup listApart rowsApart).mpr
  intro ⟨key, value⟩
  rw [Std.ExtTreeMap.mem_toList_iff_getElem?_eq_some, getElem?_insertMany_empty_iff distinct]

theorem size_insertMany_empty (distinct : (rows.map Prod.fst).Nodup) :
    ((∅ : OffsetMap α).insertMany rows).size = rows.length := by
  rw [← Std.ExtTreeMap.length_toList, (toList_insertMany_perm distinct).length_eq]

end Distinct

end GlobalMap.OffsetMap
