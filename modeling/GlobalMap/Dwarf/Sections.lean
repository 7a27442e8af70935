import GlobalMap.Coff.Image
/-!
The sections of an object file that hold debug information.
-/
namespace GlobalMap.Dwarf

/-- The contents of the sections that entries are read from. Those of the entries themselves and of
their abbreviations are empty when the file has no such section; the others are then absent. -/
structure Sections where
  entries : Bytes := []
  abbreviations : Bytes := []
  strings : Option Bytes := none
  lineStrings : Option Bytes := none
  stringOffsets : Option Bytes := none
  addresses : Option Bytes := none
  locationLists : Option Bytes := none
  rangeLists : Option Bytes := none

namespace Sections

def entriesName : String := ".debug_info"

def abbreviationsName : String := ".debug_abbrev"

/-- The sections of an image. -/
def ofImage (image : Coff.Image) : Sections :=
  let contents := fun name => (image.section? name).map Coff.Section.data
  { entries := image.sectionData entriesName
    abbreviations := image.sectionData abbreviationsName
    strings := contents ".debug_str"
    lineStrings := contents ".debug_line_str"
    stringOffsets := contents ".debug_str_offsets"
    addresses := contents ".debug_addr"
    locationLists := contents ".debug_loclists"
    rangeLists := contents ".debug_rnglists" }

/-- The warnings that an image without debug information gives rise to. -/
def warnings (image : Coff.Image) : List String :=
  [entriesName, abbreviationsName].filterMap fun name =>
    if (image.section? name).isNone then some s!"No {name} section; the map will be empty"
    else none

end Sections

end GlobalMap.Dwarf
