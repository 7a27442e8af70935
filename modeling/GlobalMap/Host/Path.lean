/-!
Paths of files.

A path is where it starts and the names on the way. Empty names and names that are a single dot say
nothing and are dropped when a path is read; a name of two dots leads to the directory above and is
kept, since what that is depends on the files.
-/
namespace GlobalMap

/-- Where a path starts. -/
inductive Root where
  /-- At the working directory. -/
  | relative
  /-- At the root of all files. -/
  | absolute
  /-- At a root that is written with exactly two slashes. -/
  | doubled
  deriving DecidableEq, Repr

/-- The text that a path with this start begins with. -/
def Root.text : Root → String
  | relative => ""
  | absolute => "/"
  | doubled => "//"

/-- A path. -/
structure Path where
  root : Root := .relative
  parts : List String := []
  deriving DecidableEq, Repr

namespace Path

/-- The pieces of a text between slashes. -/
def pieces : List Char → List (List Char)
  | [] => [[]]
  | c :: rest =>
    if c = '/' then [] :: pieces rest
    else
      match pieces rest with
      | [] => [[c]]
      | piece :: others => (c :: piece) :: others

/-- The start of a path by the slashes in front of it. -/
def rootOf (text : List Char) : Root :=
  match (text.takeWhile (· = '/')).length with
  | 0 => .relative
  | 2 => .doubled
  | _ => .absolute

/-- The path that a text is. -/
def ofString (text : String) : Path where
  root := rootOf text.toList
  parts := ((pieces text.toList).map String.ofList).filter fun part => part != "" && part != "."

/-- The text of a path; that of the working directory itself is a dot. -/
def text (p : Path) : String :=
  let text := p.root.text ++ "/".intercalate p.parts
  if text.isEmpty then "." else text

/-- The last name of a path. -/
def name? (p : Path) : Option String :=
  p.parts.getLast?

/-- The path without its last name. -/
def parent (p : Path) : Path :=
  { p with parts := p.parts.dropLast }

/-- The path of a name inside a directory. -/
def child (p : Path) (name : String) : Path :=
  { p with parts := p.parts ++ [name] }

/-- The path with a suffix behind its last name; `none` when it has no last name. -/
def addSuffix? (p : Path) (suffix : String) : Option Path :=
  p.name?.map fun name => p.parent.child (name ++ suffix)

end Path

end GlobalMap
