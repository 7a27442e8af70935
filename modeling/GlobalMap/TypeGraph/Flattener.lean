import GlobalMap.TypeGraph.Expansion
import GlobalMap.Text.Quoted
import Std.Data.ExtTreeSet
/-!
Expanding the structures of a graph one after the other, keeping finished trees for the next time.

A tree depends on the structures above it only where it was cut at one of them. So a tree is kept
only when nothing in it was cut at a structure above its root, and a kept tree is used only where
none of the structures in it is being expanded. Every answer is then the tree that `expand` gives,
whatever was asked before. Each cut is recorded when it is made.
-/
namespace GlobalMap

/-- A member that was left without fields because its structure was being expanded. -/
structure Cut where
  cycle : Cycle
  member : String
  deriving DecidableEq, Repr

namespace Cut

def message (c : Cut) : String :=
  s!"{c.cycle.message}; member {Text.Quoted.text c.member} left unexpanded"

end Cut

/-- A tree of members and the structures that are expanded anywhere in it. -/
structure Expansion where
  members : List Member
  contained : Std.ExtTreeSet Int := ∅

namespace Expansion

/-- Whether no structure of the tree is on a path. -/
def avoids (e : Expansion) (path : List Int) : Bool :=
  path.all fun offset => !e.contained.contains offset

end Expansion

/-- What has been expanded so far. -/
structure Flattener where
  /-- Trees by the identity of their root. -/
  kept : OffsetMap Expansion := ∅
  /-- The cuts made, in order. -/
  cuts : List Cut := []

/-- The shallowest of two places on a path; `none` is no place. -/
def shallowest : Option Nat → Option Nat → Option Nat
  | none, b => b
  | a, none => a
  | some a, some b => some (min a b)

namespace Flattener

/-- The kept tree of a structure, if it may stand below a path. -/
def usable? (f : Flattener) (path : List Int) (identity : Int) : Option Expansion :=
  f.kept[identity]?.filter fun tree => tree.avoids path

/-- Keeps a tree unless it was cut above its root, which stands at `depth`. -/
def keep (f : Flattener) (depth : Nat) (identity : Int) (tree : Expansion) (cut : Option Nat) :
    Flattener :=
  if cut.all (depth ≤ ·) then { f with kept := f.kept.insert identity tree } else f

/-- Records that a member was left without fields. -/
def recordCut (f : Flattener) (cycle : Cycle) (member : String) : Flattener :=
  { f with cuts := f.cuts ++ [⟨cycle, member⟩] }

/-- What expanding a structure below a path gives: its tree, the shallowest place of the path, the
structure itself included, at which the tree was cut, and what has been expanded by then. -/
structure Outcome where
  tree : Expansion
  cut : Option Nat
  after : Flattener

mutual

/-- Expands a structure below a path that it is not on. -/
def expand (structures : OffsetMap Structure) (path : List Int) (identity : Int) (f : Flattener) :
    Outcome :=
  match f.usable? path identity with
  | some tree => ⟨tree, none, f⟩
  | none =>
    match _held : structures[identity]? with
    | none => ⟨⟨[], ∅⟩, none, f⟩
    | some s =>
      if _fresh : identity ∈ path then ⟨⟨[], ∅⟩, none, f⟩
      else
        let below := expandMembers structures (path ++ [identity]) s.members f
        let tree := { below.tree with contained := below.tree.contained.insert identity }
        { below with
          tree
          after := below.after.keep path.length identity tree below.cut }
termination_by (structures.unvisited path, 0)
decreasing_by
  apply Prod.Lex.left
  refine OffsetMap.unvisited_append_lt ?_ _fresh
  rw [Std.ExtTreeMap.mem_iff_isSome_getElem?, _held]
  rfl

/-- Expands the members of the structure at the end of a path. -/
def expandMembers (structures : OffsetMap Structure) (path : List Int) (members : List Member)
    (f : Flattener) : Outcome :=
  match members with
  | [] => ⟨⟨[], ∅⟩, none, f⟩
  | m :: rest =>
    match named? structures m.typeRef with
    | none =>
      let others := expandMembers structures path rest f
      { others with tree := { others.tree with members := m.bare :: others.tree.members } }
    | some child =>
      match path.idxOf? child with
      | some depth =>
        let others := expandMembers structures path rest (f.recordCut ⟨child, path⟩ m.name)
        { others with
          tree := { others.tree with members := m.bare :: others.tree.members }
          cut := shallowest (some depth) others.cut }
      | none =>
        let below := expand structures path child f
        let others := expandMembers structures path rest below.after
        { tree := {
            members := { m with fields := below.tree.members } :: others.tree.members
            contained := below.tree.contained.insertMany others.tree.contained.toList }
          cut := shallowest below.cut others.cut
          after := others.after }
termination_by (structures.unvisited path, members.length)

end

/-- The members, with their fields, of the structure stored at an offset. -/
def membersAt? (structures : OffsetMap Structure) (f : Flattener) (offset : Int) :
    Option (List Member × Flattener) :=
  structures[offset]?.map fun s =>
    let outcome := expand structures [] s.identity f
    (outcome.tree.members, outcome.after)

/-- The structures of a graph with the fields of their members, in ascending order of offsets. -/
def flattenRows (structures : OffsetMap Structure) (f : Flattener) :
    List (Int × Structure) → OffsetMap Structure × Flattener
  | [] => (∅, f)
  | (offset, s) :: rest =>
    let outcome := expand structures [] s.identity f
    let (flat, after) := flattenRows structures outcome.after rest
    (flat.insert offset { s with members := outcome.tree.members }, after)

/-- Every structure of a graph with the fields of its members. -/
def flatten (structures : OffsetMap Structure) (f : Flattener) :
    OffsetMap Structure × Flattener :=
  flattenRows structures f structures.toList

/-- The warning that sums up the cuts, if there are any. -/
def summary? (f : Flattener) : Option String :=
  if f.cuts.isEmpty then none
  else some s!"Stopped expansion at {f.cuts.length} self-referential members"

end Flattener

end GlobalMap
