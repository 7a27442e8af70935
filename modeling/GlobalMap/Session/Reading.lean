import GlobalMap.Dwarf.Sections
import GlobalMap.Dwarf.Tree
import GlobalMap.Session.Basic
import GlobalMap.Session.Fault
/-!
Opening and closing a session.

Opening reads the file, then its image, then the debug information of the image. Each is kept as
soon as it has been read, also when the next cannot be; closing lets go of all of them.
-/
namespace GlobalMap.Session

variable {m : Type → Type} [Monad m] [Host m]

/-- Reads the object file. -/
def readContents : InSession m (Except Fault Bytes) := do
  let path := (← get).input
  Host.debug Channel.generator s!"Reading object file: {path.text}"
  match ← Host.readFile path with
  | .error refusal => return .error (.unreadable path refusal)
  | .ok contents =>
    modify fun s => { s with contents := some contents }
    return .ok contents

/-- Reads the image that contents hold. What is odd in it is a warning, also when it turns out not
to be an image. -/
def readImage (contents : Bytes) : InSession m (Except Fault Coff.Image) :=
  operation "parse container" Fault.message do
    let outcome ← stage Channel.container "CoffFile.parse" Fault.message do
      for warning in Coff.Image.warnings contents do
        Host.warning Channel.names warning.message
      return (Coff.Image.read contents).mapError .container
    if let .ok image := outcome then modify fun s => { s with image := some image }
    return outcome

/-- Reads the debug information of an image. An image without any is odd and no fault. -/
def readDebugInfo (image : Coff.Image) : InSession m (Except Fault Unit) := do
  let outcome ← stage Channel.debugInfo "load_debug_info" Fault.message do
    for text in Dwarf.Sections.warnings image do
      Host.warning Channel.debugInfo text
    return .ok (DebugInfo.read (.ofImage image))
  match outcome with
  | .error fault => return .error fault
  | .ok info =>
    modify fun s => { s with debugInfo := some info }
    return .ok ()

/-- Hands in that the session is open. -/
def announce (contents : Bytes) (image : Coff.Image) : InSession m Unit := do
  let path := (← get).input
  Host.info Channel.generator (s!"Loaded {path.text} ({contents.length} bytes, " ++
    s!"{image.sections.length} sections, {image.header.machineName})")

/-- Opens a session. -/
def openFile : InSession m (Except Fault Unit) := ExceptT.run do
  let contents ← ExceptT.mk readContents
  let image ← ExceptT.mk (readImage contents)
  ExceptT.mk (readDebugInfo image)
  ExceptT.lift (announce contents image)

/-- Closes a session. -/
def close : InSession m Unit := do
  modify fun s => { s with contents := none, image := none, debugInfo := none }
  Host.debug Channel.generator "Object file released"

end GlobalMap.Session
