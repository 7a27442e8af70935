/-!
Records of what happens while the program runs.

A record has a level, comes from a channel, and carries a text. Who shows it decides by the level.
-/
namespace GlobalMap

/-- How serious a record is. -/
inductive Level where
  | debug
  | info
  | warning
  | error
  | critical
  deriving DecidableEq, Repr

namespace Level

def name : Level → String
  | debug => "DEBUG"
  | info => "INFO"
  | warning => "WARNING"
  | error => "ERROR"
  | critical => "CRITICAL"

/-- The place of a level in the order of seriousness. -/
def rank : Level → Nat
  | debug => 0
  | info => 1
  | warning => 2
  | error => 3
  | critical => 4

end Level

/-- A record. -/
structure Record where
  level : Level
  channel : String
  text : String
  deriving DecidableEq, Repr

namespace Record

/-- A record as it is shown on the console. -/
def consoleLine (r : Record) : String :=
  s!"{r.level.name}: {r.text}"

/-- A record as it stands in a log file, with the time it was made at. -/
def fileLine (r : Record) (time : String) : String :=
  s!"{time} - {r.channel} - {r.level.name} - {r.text}"

/-- Whether a record is shown where the lowest level shown is `lowest`. -/
def isShown (r : Record) (lowest : Level) : Bool :=
  lowest.rank ≤ r.level.rank

end Record

/-! The channels that records come from. -/

namespace Channel

def container : String := "coff_dwarf_mapper.domain.services.container.coff_parser"
def names : String := "coff_dwarf_mapper.domain.services.container.string_table"
def walk : String := "coff_dwarf_mapper.domain.services.parsing.mapper"
def resolution : String := "coff_dwarf_mapper.domain.services.resolution.postprocessor"
def flattening : String := "coff_dwarf_mapper.domain.services.resolution.struct_flattener"
def projection : String := "coff_dwarf_mapper.domain.services.generation.map_projector"
def mapFile : String := "coff_dwarf_mapper.domain.services.generation.mapfile_writer"
def debugInfo : String := "coff_dwarf_mapper.infrastructure.dwarf.elftools_source"
def logging : String := "coff_dwarf_mapper.infrastructure.logging.logger_setup"
def generator : String := "coff_dwarf_mapper.application.generators.mapfile_generator"
def command : String := "coff_dwarf_mapper.main"

end Channel

end GlobalMap
