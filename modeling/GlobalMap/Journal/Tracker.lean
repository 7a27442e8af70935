import GlobalMap.Journal.Elapsed
import GlobalMap.Journal.Record
import GlobalMap.Text.Hex
/-!
The progress of a run: the units and entries seen so far, and the blocks that are open.

A block is an operation with a name or the walk over a unit. Blocks are left in the opposite order
of being entered, each by its end or by an error, and both are recorded.
-/
namespace GlobalMap

/-- A block that is open. -/
inductive Block where
  | operation (name : String) (start : Nat)
  /-- A unit; `entries` is the number of entries seen before it. -/
  | unit (start entries : Nat)
  deriving DecidableEq, Repr

/-- The name of the operation that a block is. -/
def Block.operation? : Block → Option String
  | operation name _ => some name
  | unit _ _ => none

/-- The progress of a run. -/
structure Tracker where
  /-- When the run began. -/
  start : Nat := 0
  units : Nat := 0
  entries : Nat := 0
  /-- The open blocks, the innermost first. -/
  blocks : List Block := []
  deriving DecidableEq, Repr

/-- A record of progress, before it is known which channel it comes from. -/
abbrev Remark := Level × String

namespace Tracker

/-- The names of the open operations, the outermost first. -/
def operations (t : Tracker) : List String :=
  (t.blocks.filterMap Block.operation?).reverse

/-- Where the run is, in words. -/
def context (t : Tracker) : String :=
  match t.operations with
  | [] => "idle"
  | names => " -> ".intercalate names

/-- Enters an operation. -/
def enterOperation (t : Tracker) (name : String) (now : Nat) : Tracker × Remark :=
  ({ t with blocks := .operation name now :: t.blocks },
    (.debug, s!"Starting operation: {name}"))

/-- Enters a unit. -/
def enterUnit (t : Tracker) (offset length : Int) (now : Nat) : Tracker × Remark :=
  let units := t.units + 1
  ({ t with units, blocks := .unit now t.entries :: t.blocks },
    (.debug, s!"Processing unit #{units} at {Text.hex offset} (length: {length} bytes)"))

/-- Counts entries. -/
def countEntries (t : Tracker) (count : Nat) : Tracker :=
  { t with entries := t.entries + count }

/-- What is recorded when a block has ended well. -/
def ended (t : Tracker) (now : Nat) : Block → String
  | .operation name start =>
    s!"Completed operation: {name} in {Elapsed.seconds 3 (now - start)}s"
  | .unit start before =>
    s!"Unit #{t.units} completed in {Elapsed.seconds 3 (now - start)}s " ++
      s!"({t.entries - before} entries visited)"

/-- What is recorded when an error leaves a block. -/
def broken (t : Tracker) (now : Nat) (reason : String) : Block → String
  | .operation _ start =>
    s!"Failed operation: {t.context} after {Elapsed.seconds 3 (now - start)}s: {reason}"
  | .unit start _ =>
    s!"Unit #{t.units} failed after {Elapsed.seconds 3 (now - start)}s: {reason}"

/-- Leaves the innermost block. -/
def leave (t : Tracker) (now : Nat) : Tracker × Option Remark :=
  match t.blocks with
  | [] => (t, none)
  | block :: rest => ({ t with blocks := rest }, some (.debug, t.ended now block))

/-- Leaves the innermost block by an error. -/
def fail (t : Tracker) (now : Nat) (reason : String) : Tracker × Option Remark :=
  match t.blocks with
  | [] => (t, none)
  | block :: rest => ({ t with blocks := rest }, some (.error, t.broken now reason block))

/-- The statistics of the run. -/
def summary (t : Tracker) (now : Nat) : Remark :=
  let span := now - t.start
  (.info, s!"Walk complete: {t.units} units, {t.entries} entries in " ++
    s!"{Elapsed.seconds 2 span}s ({Elapsed.rate t.entries span} entries/s)")

end Tracker

end GlobalMap
