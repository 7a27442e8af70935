import Std.Data.ExtTreeMap
/-!
Finite maps keyed by the offsets of entries, and the number of their keys that a search has yet to
visit.

A search that visits only keys, and none of them twice, ends because that number falls with every
step (`unvisited_append_lt`, `unvisited_cons_lt`).
-/
namespace GlobalMap

/-- A finite map from offsets. Two maps with the same look-ups are equal. -/
abbrev OffsetMap (α : Type) := Std.ExtTreeMap Int α

namespace OffsetMap

/-- The number of keys that are not among the visited offsets. -/
def unvisited {α : Type} (m : OffsetMap α) (visited : List Int) : Nat :=
  m.keys.countP fun key => !visited.contains key

/-- A predicate that holds of fewer members of a list, and of one member less, counts less. -/
theorem countP_lt_of_mem {α : Type} {p q : α → Bool} {xs : List α} {x : α}
    (le : ∀ y, p y = true → q y = true) (mem : x ∈ xs) (notP : p x = false) (isQ : q x = true) :
    xs.countP p < xs.countP q := by
  induction xs with
  | nil => cases mem
  | cons y ys ih =>
    have tail : ys.countP p ≤ ys.countP q := List.countP_mono_left fun z _ => le z
    simp only [List.countP_cons]
    rcases List.mem_cons.1 mem with rfl | mem
    · simp only [notP, isQ, if_true, Bool.false_eq_true, if_false]
      omega
    · have below := ih mem
      have head : (if p y = true then 1 else 0) ≤ (if q y = true then 1 else 0) := by
        by_cases h : p y = true
        · simp [h, le y h]
        · simp [h]
      omega

theorem unvisited_lt {α : Type} {m : OffsetMap α} {before after : List Int} {key : Int}
    (mem : key ∈ m) (fresh : key ∉ before) (now : key ∈ after)
    (kept : ∀ k, k ∈ before → k ∈ after) : m.unvisited after < m.unvisited before := by
  apply countP_lt_of_mem (x := key)
  · intro k h
    simp only [Bool.not_eq_true', List.contains_eq_mem, decide_eq_false_iff_not] at h ⊢
    exact fun hk => h (kept k hk)
  · exact Std.ExtTreeMap.mem_keys.2 mem
  · simpa using now
  · simpa using fresh

/-- A visit to a new key, recorded at the end of the visited offsets. -/
theorem unvisited_append_lt {α : Type} {m : OffsetMap α} {visited : List Int} {key : Int}
    (mem : key ∈ m) (fresh : key ∉ visited) :
    m.unvisited (visited ++ [key]) < m.unvisited visited :=
  unvisited_lt mem fresh (by simp) (fun _ h => List.mem_append_left _ h)

/-- A visit to a new key, recorded in front of the visited offsets. -/
theorem unvisited_cons_lt {α : Type} {m : OffsetMap α} {visited : List Int} {key : Int}
    (mem : key ∈ m) (fresh : key ∉ visited) :
    m.unvisited (key :: visited) < m.unvisited visited :=
  unvisited_lt mem fresh (by simp) (fun _ h => List.mem_cons_of_mem _ h)

/-- A visit never adds to what is left. -/
theorem unvisited_cons_le {α : Type} (m : OffsetMap α) (visited : List Int) (key : Int) :
    m.unvisited (key :: visited) ≤ m.unvisited visited := by
  apply List.countP_mono_left
  intro k _ h
  simp only [Bool.not_eq_true', List.contains_eq_mem, decide_eq_false_iff_not,
    List.mem_cons, not_or] at h ⊢
  exact h.2

end OffsetMap

end GlobalMap
