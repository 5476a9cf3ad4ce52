import ModalNotes.App
import ModalNotes.CommandLine

/-! The program at a terminal. A line of input is a key, or the answer to an open prompt; after each the
status line and the text are printed. Notes last as long as the program runs. -/
namespace ModalNotes.Terminal

def settingNames : List String :=
  ["DB_PATH", "MAX_HISTORY", "LOG_PRESET", "LOG_FILE", "LOG_LEVEL", "LOG_JSON", "DISABLE_CONSOLE"]

def environment : IO Environment :=
  settingNames.foldlM (fun env name => do
    let key := Environment.keyOf name
    match ← IO.getEnv (String.ofList key) with
    | some value => pure (env.put key value.toList)
    | none => pure env) {}

def writeLog (log : LogConfig) (trace : List Event) : IO Unit := do
  let time := Text.ofNat (← IO.monoMsNow)
  IO.eprint (String.ofList (log.consoleText time trace))
  if !log.file.isEmpty then
    let file ← IO.FS.Handle.mk (String.ofList log.file) .append
    file.putStr (String.ofList (log.fileText time trace))

def print (app : App) : IO Unit := do
  IO.println (String.ofList app.status)
  match app.view with
  | some view => IO.println (String.ofList view.plain)
  | none => pure ()

def perform (log : LogConfig) (m : Run App Unit) (app : App) : IO App := do
  let o := m app
  writeLog log o.trace
  match o.result with
  | .ok _ => pure ()
  | .error fault => IO.eprintln (String.ofList fault.message)
  print o.state
  pure o.state

def quitKeys : List String := ["ctrl+q", "ctrl+c"]

partial def serve (input : IO.FS.Stream) (log : LogConfig) (app : App) : IO Unit := do
  let line ← input.getLine
  let name := line.toList.filter (· != '\n')
  if line.isEmpty || quitKeys.contains (String.ofList name) then pure ()
  else serve input log (← perform log (App.enter name) app)

def folders : Folders := fun _ path => path.isEmpty

def firstNote (choice : CommandLine.NoteChoice) : Option Int :=
  match choice with
  | .id n => some n
  | _ => none

def usage : String := "usage: linkpad [-h] [--db DB] [--log-preset PRESET] [--note NOTE]"

end ModalNotes.Terminal

open ModalNotes Terminal in
def main (args : List String) : IO UInt32 := do
  match CommandLine.launch (← environment) folders (args.map String.toList) with
  | .error .helpShown =>
    IO.println usage
    pure 0
  | .error (.misused message) =>
    IO.eprintln usage
    IO.eprintln ("linkpad: error: " ++ String.ofList message)
    pure 2
  | .error (.failed fault) =>
    IO.eprintln (String.ofList fault.message)
    pure 1
  | .ok l =>
    let app : App := { storage := {}, maxHistory := l.maxHistory, initialNote := firstNote l.note }
    serve (← IO.getStdin) l.log (← perform l.log App.mount app)
    pure 0
