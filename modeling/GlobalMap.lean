import GlobalMap.Bytes
import GlobalMap.Coff.Header
import GlobalMap.Coff.Image
import GlobalMap.Coff.Name
import GlobalMap.Command
import GlobalMap.CommandLine.Reading
import GlobalMap.CommandLine.Usage
import GlobalMap.CommandLine.Word
import GlobalMap.DebugInfo.Entry
import GlobalMap.DebugInfo.Omission
import GlobalMap.DebugInfo.Survey
import GlobalMap.DebugInfo.Walk
import GlobalMap.Dwarf.Abbreviation
import GlobalMap.Dwarf.Cursor
import GlobalMap.Dwarf.Fault
import GlobalMap.Dwarf.Form
import GlobalMap.Dwarf.Record
import GlobalMap.Dwarf.Scan
import GlobalMap.Dwarf.Sections
import GlobalMap.Dwarf.Tag
import GlobalMap.Dwarf.Tree
import GlobalMap.Dwarf.Unit
import GlobalMap.Host.Basic
import GlobalMap.Host.Machine
import GlobalMap.Host.Path
import GlobalMap.Journal.Elapsed
import GlobalMap.Journal.Logging
import GlobalMap.Journal.Record
import GlobalMap.Journal.Stage
import GlobalMap.Journal.Tracker
import GlobalMap.Json.Basic
import GlobalMap.Json.Printer
import GlobalMap.Json.Reader
import GlobalMap.Location.Instruction
import GlobalMap.Location.Machine
import GlobalMap.Location.Opcode
import GlobalMap.Location.Program
import GlobalMap.Main
import GlobalMap.MapFile.Document
import GlobalMap.MapFile.Entry
import GlobalMap.MapFile.Projection
import GlobalMap.MapFile.Writing
import GlobalMap.Number.Binary64
import GlobalMap.Number.Decimal
import GlobalMap.Number.Rounding
import GlobalMap.Proofs.Coff.Acceptance
import GlobalMap.Proofs.Coff.Layout
import GlobalMap.Proofs.Coff.Names
import GlobalMap.Proofs.Coff.Padding
import GlobalMap.Proofs.Coff.RoundTrip
import GlobalMap.Proofs.Coff.Words
import GlobalMap.Proofs.Command.AllOrNothing
import GlobalMap.Proofs.Command.Configured
import GlobalMap.Proofs.DebugInfo.Alone
import GlobalMap.Proofs.DebugInfo.Approach
import GlobalMap.Proofs.DebugInfo.Collected
import GlobalMap.Proofs.DebugInfo.Conservation
import GlobalMap.Proofs.DebugInfo.Counted
import GlobalMap.Proofs.DebugInfo.EncodedPlaces
import GlobalMap.Proofs.DebugInfo.Reached
import GlobalMap.Proofs.DebugInfo.Relocation
import GlobalMap.Proofs.DebugInfo.Settled
import GlobalMap.Proofs.DebugInfo.UnitOrder
import GlobalMap.Proofs.DebugInfo.Walked
import GlobalMap.Proofs.Dwarf.Abbreviations
import GlobalMap.Proofs.Dwarf.Agreement
import GlobalMap.Proofs.Dwarf.Circles
import GlobalMap.Proofs.Dwarf.Cursors
import GlobalMap.Proofs.Dwarf.Entries
import GlobalMap.Proofs.Dwarf.Layout
import GlobalMap.Proofs.Dwarf.Numerals
import GlobalMap.Proofs.Dwarf.RoundTrip
import GlobalMap.Proofs.Dwarf.Words
import GlobalMap.Proofs.Host.Places
import GlobalMap.Proofs.Host.Programs
import GlobalMap.Proofs.Host.Records
import GlobalMap.Proofs.Host.Temporary
import GlobalMap.Proofs.Journal.Logging
import GlobalMap.Proofs.Json.Regular
import GlobalMap.Proofs.Json.RoundTrip
import GlobalMap.Proofs.Json.Spacing
import GlobalMap.Proofs.Json.Spelling
import GlobalMap.Proofs.Location.Depth
import GlobalMap.Proofs.Location.Reduction
import GlobalMap.Proofs.Location.Sums
import GlobalMap.Proofs.Location.WordMachine
import GlobalMap.Proofs.MapFile.Atomic
import GlobalMap.Proofs.MapFile.Replacement
import GlobalMap.Proofs.MapFile.RoundTrip
import GlobalMap.Proofs.MapFile.Spacing
import GlobalMap.Proofs.OffsetMap
import GlobalMap.Proofs.Session.Blocks
import GlobalMap.Proofs.Session.Histories
import GlobalMap.Proofs.Session.Produced
import GlobalMap.Proofs.Session.Runs
import GlobalMap.Proofs.Session.Strict
import GlobalMap.Proofs.Settings.Precedence
import GlobalMap.Proofs.Settings.Variables
import GlobalMap.Proofs.TypeGraph.Addresses
import GlobalMap.Proofs.TypeGraph.Aliases
import GlobalMap.Proofs.TypeGraph.Chains
import GlobalMap.Proofs.TypeGraph.Cycles
import GlobalMap.Proofs.TypeGraph.Definitions
import GlobalMap.Proofs.TypeGraph.Descent
import GlobalMap.Proofs.TypeGraph.Effects
import GlobalMap.Proofs.TypeGraph.Flattening
import GlobalMap.Proofs.TypeGraph.Idempotence
import GlobalMap.Proofs.TypeGraph.Layouts
import GlobalMap.Proofs.TypeGraph.Meaning
import GlobalMap.Proofs.TypeGraph.Moments
import GlobalMap.Proofs.TypeGraph.Orbits
import GlobalMap.Proofs.TypeGraph.Questions
import GlobalMap.Proofs.TypeGraph.Relocation
import GlobalMap.Proofs.TypeGraph.Resolution
import GlobalMap.Proofs.TypeGraph.Variables
import GlobalMap.Session.Basic
import GlobalMap.Session.Fault
import GlobalMap.Session.Mapping
import GlobalMap.Session.Reading
import GlobalMap.Settings.Basic
import GlobalMap.Settings.EnvironmentFile
import GlobalMap.Settings.Loading
import GlobalMap.Text.Blank
import GlobalMap.Text.Digit
import GlobalMap.Text.Hex
import GlobalMap.Text.Lines
import GlobalMap.Text.Printable
import GlobalMap.Text.Quoted
import GlobalMap.Text.Utf8
import GlobalMap.TypeGraph.Alias
import GlobalMap.TypeGraph.Basic
import GlobalMap.TypeGraph.Expansion
import GlobalMap.TypeGraph.Flattener
import GlobalMap.TypeGraph.OffsetMap
import GlobalMap.TypeGraph.Resolved
