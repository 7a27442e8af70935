import GlobalMap.MapFile.Document
import GlobalMap.Host.Basic
import GlobalMap.Journal.Stage
/-!
Writing a map file at once or not at all.

The text is written to a temporary file beside the target, which then takes the target's place. When
any of that is refused the temporary file is removed and the target is as before. Entries that have
no text are given up before anything is asked of the machine.
-/
namespace GlobalMap.MapFile

/-- Why a map file could not be written. -/
inductive Unwritable where
  /-- The entries have no text. -/
  | overlong (number : Number.Overlong)
  /-- The machine refused to put the text where it belongs. -/
  | refused (path : Path) (refusal : Refusal)
  deriving DecidableEq, Repr

namespace Unwritable

/-- Whether the machine failed to write. It did not even try where there is no text or the path is
none. -/
def isOfMachine : Unwritable → Bool
  | overlong _ => false
  | refused _ refusal => refusal != .nullCharacter

def message : Unwritable → String
  | overlong number => number.message
  | refused _ .nullCharacter => Refusal.nullCharacter.message
  | refused path refusal => s!"Cannot write map file {path.text}: {refusal.message}"

end Unwritable

variable {m : Type → Type} [Monad m] [Host m]

/-- The permission bits that the map file gets: those of the file that it replaces, or of a new file
when there is none. -/
def targetMode (path : Path) : m (Except Refusal Nat) := do
  match ← Host.status path with
  | .ok (.file mode) => return .ok mode
  | .ok .directory => return .ok 0o755
  | .error .notFound => return .ok (Permission.ofNewFile (← Host.umask))
  | .error refusal => return .error refusal

/-- Fills a temporary file and moves it over the target. -/
def fill (temporary path : Path) (contents : Bytes) : ExceptT Refusal m Unit := do
  ExceptT.mk (Host.writeTemporary temporary contents)
  let mode ← ExceptT.mk (targetMode path)
  ExceptT.mk (Host.setMode temporary mode)
  ExceptT.mk (Host.replace temporary path)

/-- Puts contents at a path, all of them or none. -/
def replaceContents (path : Path) (contents : Bytes) : m (Except Refusal Unit) := do
  let before := "." ++ path.name?.getD "" ++ "."
  match ← Host.createTemporary path.parent before ".tmp" with
  | .error refusal => return .error refusal
  | .ok temporary =>
    match ← (fill temporary path contents).run with
    | .ok () => return .ok ()
    | .error refusal =>
      let _ ← Host.remove temporary
      return .error refusal

/-- The bytes of a text in UTF-8. -/
def encoded (text : String) : Bytes :=
  text.toUTF8.toList

/-- Writes entries to a file, and says how many bytes they take. -/
def write (entries : List MapEntry) (path : Path) (pretty : Bool) : m (Except Unwritable Nat) :=
  stage Channel.mapFile "write_map_file" Unwritable.message do
    match print entries pretty with
    | .error number => return .error (.overlong number)
    | .ok text =>
      let contents := encoded text
      match ← replaceContents path contents with
      | .error refusal => return .error (.refused path refusal)
      | .ok () =>
        Host.info Channel.mapFile
          s!"Wrote {entries.length} entries ({contents.length} bytes) to {path.text}"
        return .ok contents.length

end GlobalMap.MapFile
