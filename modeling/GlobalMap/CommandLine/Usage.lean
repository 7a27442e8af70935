import GlobalMap.CommandLine.Reading
/-!
What the program says about its command line.
-/
namespace GlobalMap.CommandLine

/-- The name of the program. -/
def programName : String := "coff-dwarf-mapper"

/-- An option as the usage shows it. -/
def Choice.shown (choice : Choice) : String :=
  let letter := match choice.letter? with
    | some c => s!"-{c}, "
    | none => "    "
  letter ++ "--" ++ choice.name ++ if choice.takesValue then " PATH" else ""

/-- What an option is for. -/
def Choice.purpose : Choice → String
  | help => "Show this text"
  | output => s!"Map file to write (default: input path + '{Settings.outputSuffix}')"
  | pretty => "Indent the JSON output"
  | verbose => "Enable verbose output with debug logs"
  | strict => "Fail instead of omitting debug entries that cannot be mapped"
  | logDirectory => "Also write a timestamped debug log file to this directory"

/-- The line that shows what a command line looks like. -/
def usage : String :=
  s!"usage: {programName} [options] [input_file]"

/-- The text that help consists of. -/
def help : List String :=
  [usage, "", "Map the global variables of a COFF object file to their addresses and layouts", "",
    "options:"] ++ Choice.all.map fun choice => s!"  {choice.shown}: {choice.purpose}"

def Misuse.message : Misuse → String
  | ambiguous word => s!"ambiguous option: {word}"
  | needlessValue choice => s!"--{choice.name} takes no value"
  | missingValue choice => s!"--{choice.name} needs a value"
  | unrecognized => "unrecognized arguments"

end GlobalMap.CommandLine
