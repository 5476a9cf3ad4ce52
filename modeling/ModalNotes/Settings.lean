import ModalNotes.Text.Integer
import ModalNotes.Trace.Config

/-! Settings taken from the environment: where the notes are stored, how many edits can be undone, and
how to log. -/
namespace ModalNotes

namespace Text

def plainPath (path : Text) : Text :=
  let root : Text :=
    match path with
    | '/' :: '/' :: '/' :: _ => ['/']
    | '/' :: '/' :: _ => ['/', '/']
    | '/' :: _ => ['/']
    | _ => []
  let parts := (splitOn '/' path).filter fun part => !part.isEmpty && part != ['.']
  if root.isEmpty && parts.isEmpty then ['.'] else root ++ joinWith ['/'] parts

end Text

structure Settings where
  dbPath : Text := "notes.db".toList
  maxHistory : Int := 100
  logPreset : Option Text := none
  deriving DecidableEq, Repr

namespace Settings

def ofEnvironment (env : Environment) : Settings where
  dbPath := Text.plainPath ((env.nonempty? "DB_PATH").getD "notes.db".toList)
  maxHistory := max 1 (((env.lookUp "MAX_HISTORY").bind Text.readInt?).getD 100)
  logPreset := env.nonempty? "LOG_PRESET"

def dbUrl (s : Settings) : Text := "sqlite:///".toList ++ s.dbPath

end Settings

end ModalNotes
