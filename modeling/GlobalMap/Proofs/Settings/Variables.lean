import GlobalMap.Proofs.Command.Configured

/-! The variables that settings come from. A run asks its process about some names only: those of
the settings, and those that its file of variables mentions. What the file assigns does not depend
on any other name, so it is as if the run had asked about all. -/
namespace GlobalMap

/-- What the process on a machine says about a name. -/
def Machine.environmentValue (m : Machine) (name : String) : Option String :=
  m.environment.lookup name

namespace EnvironmentFile

section Congruence

variable {f g : String → Option String}

/-- A text with its references replaced depends on the names it refers to. -/
theorem expand_congr {text : List Char} (same : ∀ name ∈ references text, f name = g name) :
    expand f text = expand g text := by
  induction text using references.induct with
  | case1 => rw [expand, expand]
  | case2 rest name default after found shorter ih =>
    have refers : references ('$' :: '{' :: rest) = name :: references after := by
      rw [references]
      split
      next found' => rw [found] at found'; cases found'; rfl
      next missing => rw [found] at missing; cases missing
    rw [refers] at same
    obtain ⟨here, behind⟩ := List.forall_mem_cons.mp same
    rw [expand, expand]
    split
    next found' =>
      rw [found] at found'
      cases found'
      rw [here, ih behind]
    next missing => rw [found] at missing; cases missing
  | case3 rest missing ih =>
    have refers : references ('$' :: '{' :: rest) = references ('{' :: rest) := by
      rw [references]
      split
      next found => rw [missing] at found; cases found
      next => rfl
    rw [refers] at same
    rw [expand, expand]
    split
    next found => rw [missing] at found; cases found
    next => rw [ih same]
  | case4 c rest plain ih =>
    rw [references] at same
    · rw [expand, expand, ih same]
      · exact plain
      · exact plain
    · exact plain

theorem meaning_congr {name : String} (same : f name = g name) (done : List Assignment) :
    meaning f done name = meaning g done name := by
  rw [meaning, meaning, same]

theorem expanded_congr {a : Assignment}
    (same : ∀ name ∈ references (a.value.getD "").toList, f name = g name) :
    a.expanded f = a.expanded g := by
  unfold Assignment.expanded
  cases value : a.value with
  | none => rfl
  | some text =>
    rw [value, Option.getD_some] at same
    rw [Option.map_some, Option.map_some, expand_congr same]

theorem resolve_congr {given : List Assignment} (same : ∀ name ∈ names given, f name = g name) :
    resolve f given = resolve g given := by
  have behind (done : List Assignment) :
      given.foldl (fun done a => done ++ [a.expanded (meaning f done)]) done =
        given.foldl (fun done a => done ++ [a.expanded (meaning g done)]) done := by
    induction given generalizing done with
    | nil => rfl
    | cons a rest ih =>
      rw [names, List.flatMap_cons] at same
      obtain ⟨here, behind⟩ := List.forall_mem_append.mp same
      have first : a.expanded (meaning f done) = a.expanded (meaning g done) :=
        expanded_congr fun name refers =>
          meaning_congr (here name (List.mem_cons_of_mem _ refers)) done
      rw [List.foldl_cons, List.foldl_cons, first, ih behind]
  exact behind []

end Congruence

/-- Replacing references keeps the names. -/
theorem map_name_resolve (process : String → Option String) (given : List Assignment) :
    (resolve process given).map Assignment.name = given.map Assignment.name := by
  have behind (done : List Assignment) :
      (given.foldl (fun done a => done ++ [a.expanded (meaning process done)]) done).map
        Assignment.name = done.map Assignment.name ++ given.map Assignment.name := by
    induction given generalizing done with
    | nil => exact (List.append_nil _).symm
    | cons a rest ih =>
      rw [List.foldl_cons, ih, List.map_append, List.append_assoc]
      rfl
  exact behind []

theorem name_mem_names {given : List Assignment} {process : String → Option String}
    {a : Assignment} (resolved : a ∈ resolve process given) : a.name ∈ names given := by
  have named : a.name ∈ given.map Assignment.name := by
    rw [← map_name_resolve process given]
    exact List.mem_map_of_mem resolved
  obtain ⟨b, listed, same⟩ := List.mem_map.mp named
  exact List.mem_flatMap.mpr ⟨b, listed, same ▸ List.mem_cons_self⟩

theorem unsettable?_congr {f g : String → Option String} {resolved : List Assignment}
    (same : ∀ a ∈ resolved, f a.name = g a.name) :
    unsettable? f resolved = unsettable? g resolved := by
  unfold unsettable?
  generalize valueOf resolved = values
  induction resolved with
  | nil => rfl
  | cons a rest ih =>
    obtain ⟨here, behind⟩ := List.forall_mem_cons.mp same
    rw [List.findSome?_cons, List.findSome?_cons, here, ih behind]

end EnvironmentFile

namespace Settings

open OnMachine

/-- What a process says about names it was asked for is what its environment holds. -/
theorem processVariables_eq {m : Machine} {names : List String} {process : String → Option String}
    (asked : ((processVariables names : OnMachine _) m).1 = process) {name : String}
    (listed : name ∈ names) : process name = m.environmentValue name := by
  have rows : (names.mapM fun name => do
      return (name, ← (Host.readVariable name : OnMachine _)) : OnMachine _) m =
      (names.map fun name => (name, m.environmentValue name), m) := by
    clear asked listed
    induction names with
    | nil => rfl
    | cons first rest ih =>
      have read : (do return (first, ← (Host.readVariable first : OnMachine _)) : OnMachine _) m =
          ((first, m.environmentValue first), m) := rfl
      rw [List.mapM_cons, run_bind read, run_bind ih]
      rfl
  have answered : (processVariables names : OnMachine _) m = _ := run_bind rows
  rw [answered] at asked
  rw [← asked]
  change (List.lookup name (names.map fun name => (name, m.environmentValue name))).join = _
  have found : List.lookup name (names.map fun name => (name, m.environmentValue name)) =
      some (m.environmentValue name) := by
    clear rows answered asked
    induction names with
    | nil => cases listed
    | cons first rest ih =>
      rw [List.map_cons, List.lookup_cons]
      by_cases same : name = first
      · rw [same, beq_self_eq_true]
      · rw [beq_false_of_ne same]
        exact ih (List.mem_of_ne_of_mem same listed)
  rw [found]
  rfl

theorem ofVariables_congr {f g : String → Option String}
    (same : ∀ name ∈ variableNames, f name = g name) : ofVariables f = ofVariables g := by
  have each (name : String) (listed : name ∈ variableNames) : f name = g name := same name listed
  unfold ofVariables
  rw [each inputVariable (by decide), each outputVariable (by decide),
    each prettyVariable (by decide), each verboseVariable (by decide),
    each strictVariable (by decide), each logDirectoryVariable (by decide)]

end Settings

end GlobalMap
