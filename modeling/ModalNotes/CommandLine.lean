import ModalNotes.Settings
import ModalNotes.Storage.Location
import ModalNotes.Text.Quoted

/-! The command line: options with one value each, which may be shortened as long as they stay
unambiguous, and what a start with them comes to. -/
namespace ModalNotes

inductive CommandOption
  | help
  | db
  | logPreset
  | note
  deriving DecidableEq, Repr

inductive Stop
  | helpShown
  | misused (message : Text)
  | failed (fault : Fault)
  deriving Repr

namespace CommandLine

def spellings : List (Text × CommandOption) := [
  ("-h".toList, .help), ("--help".toList, .help), ("--db".toList, .db),
  ("--log-preset".toList, .logPreset), ("--note".toList, .note)]

def displayName : CommandOption → Text
  | .help => "-h/--help".toList
  | .db => "--db".toList
  | .logPreset => "--log-preset".toList
  | .note => "--note".toList

def argumentError (o : CommandOption) (problem : Text) : Stop :=
  .misused ("argument ".toList ++ displayName o ++ ": ".toList ++ problem)

inductive Word
  | plain
  | separator
  | unknown
  | option (o : CommandOption) (spelling : Text) (value : Option Text)
  deriving DecidableEq, Repr

def isNegativeNumber (arg : Text) : Bool :=
  let arg := if arg.getLast? = some '\n' then arg.dropLast else arg
  match arg with
  | '-' :: digits =>
    match digits.dropWhile Text.isDecimal with
    | [] => !digits.isEmpty
    | '.' :: fraction => !fraction.isEmpty && fraction.all Text.isDecimal
    | _ => false
  | _ => false

def longMatches (arg : Text) : List (Text × CommandOption × Option Text) :=
  let (start, value) := Text.cutAt '=' arg
  (spellings.filter fun s => start.isPrefixOf s.1).map fun s => (s.1, s.2, value)

def shortMatches (arg : Text) : List (Text × CommandOption × Option Text) :=
  spellings.filterMap fun (spelling, o) =>
    if spelling = arg.take 2 then some (spelling, o, some (arg.drop 2))
    else if arg.isPrefixOf spelling then some (spelling, o, none)
    else none

def optionMatches (arg : Text) : List (Text × CommandOption × Option Text) :=
  if "--".toList.isPrefixOf arg then longMatches arg else shortMatches arg

def ambiguous (arg : Text) (found : List Text) : Stop :=
  .misused ("ambiguous option: ".toList ++ arg ++ " could match ".toList ++
    Text.joinWith ", ".toList found)

def classifyDashed (arg : Text) : Except Stop Word :=
  match optionMatches arg with
  | [(spelling, o, value)] => .ok (.option o spelling value)
  | [] => .ok (if isNegativeNumber arg || arg.contains ' ' then .plain else .unknown)
  | several => .error (ambiguous arg (several.map Prod.fst))

def classify (arg : Text) : Except Stop Word :=
  if arg.head? ≠ some '-' || arg.length = 1 then .ok .plain
  else match spellings.lookup arg, Text.cutAt '=' arg with
    | some o, _ => .ok (.option o arg none)
    | none, (start, some value) =>
      match spellings.lookup start with
      | some o => .ok (.option o start (some value))
      | none => classifyDashed arg
    | none, (_, none) => classifyDashed arg

def separator : Text := ['-', '-']

def classifyAll : List Text → Except Stop (List (Text × Word))
  | [] => .ok []
  | arg :: rest =>
    if arg = separator then .ok ((arg, .separator) :: rest.map fun arg => (arg, .plain))
    else do
      let word ← classify arg
      let more ← classifyAll rest
      .ok ((arg, word) :: more)

inductive NoteChoice
  | none
  | emptied
  | id (n : Int)
  deriving DecidableEq, Repr

structure Request where
  db : Option Text := none
  logPreset : Option Text := none
  note : NoteChoice := .none
  extras : List Text := []
  deriving DecidableEq, Repr

def presets : List Text := ["development".toList, "production".toList, "performance".toList]

def invalidChoice (value : Text) : Text :=
  "invalid choice: ".toList ++ Text.quoted value ++ " (choose from ".toList ++
    Text.joinWith ", ".toList (presets.map Text.quoted) ++ [')']

/- The separator is no value, so it leaves an option with an empty list of values. -/
def setEmptied (r : Request) (o : CommandOption) : Except Stop Request :=
  match o with
  | .help => .error .helpShown
  | .db => .ok { r with db := some "[]".toList }
  | .logPreset => .ok { r with logPreset := some [] }
  | .note => .ok { r with note := .emptied }

def setValue (r : Request) (o : CommandOption) (value : Text) : Except Stop Request :=
  match o with
  | .help => .error .helpShown
  | .db => .ok { r with db := some (Text.plainPath value) }
  | .logPreset =>
    if presets.contains value then .ok { r with logPreset := some value }
    else .error (argumentError o (invalidChoice value))
  | .note =>
    match Text.readInt? value with
    | some n => .ok { r with note := .id n }
    | none => .error (argumentError o ("invalid int value: ".toList ++ Text.quoted value))

def setOption (r : Request) (o : CommandOption) (value : Text) : Except Stop Request :=
  if value = separator then setEmptied r o else setValue r o value

def ignoredValue (o : CommandOption) (value : Text) : Stop :=
  argumentError o ("ignored explicit argument ".toList ++ Text.quoted value)

def stopForHelp (spelling : Text) (value : Option Text) : Stop :=
  match value with
  | none => .helpShown
  | some value =>
    if spelling = ['-', 'h'] && !value.isEmpty && value.all (· == 'h') then .helpShown
    else if spelling = ['-', 'h'] then ignoredValue .help (value.dropWhile (· == 'h'))
    else ignoredValue .help value

def parseWords : List (Text × Word) → Request → Except Stop Request
  | [], r => .ok r
  | (_, .option .help spelling value) :: _, _ => .error (stopForHelp spelling value)
  | (_, .option o _ (some value)) :: rest, r =>
    match setOption r o value with
    | .error stop => .error stop
    | .ok r => parseWords rest r
  | (_, .option o _ none) :: (value, .plain) :: rest, r =>
    match setOption r o value with
    | .error stop => .error stop
    | .ok r => parseWords rest r
  | (_, .option o _ none) :: _, _ => .error (argumentError o "expected one argument".toList)
  | (arg, _) :: rest, r => parseWords rest { r with extras := r.extras ++ [arg] }

def parse (args : List Text) : Except Stop Request := do
  let words ← classifyAll args
  let r ← parseWords words {}
  if r.extras.isEmpty then .ok r
  else .error (.misused ("unrecognized arguments: ".toList ++ Text.joinWith [' '] r.extras))

structure Launch where
  location : Location
  note : NoteChoice
  maxHistory : Int
  log : LogConfig
  deriving DecidableEq, Repr

def launch (env : Environment) (folders : Folders) (args : List Text) : Except Stop Launch := do
  let r ← parse args
  let settings := Settings.ofEnvironment env
  let log ← (LogConfig.resolve env none (r.logPreset.or settings.logPreset)).mapError Stop.failed
  let asked := Location.ofPath (r.db.getD settings.dbPath)
  let location ← (asked.opened folders).mapError Stop.failed
  .ok { location, note := r.note, maxHistory := settings.maxHistory, log }

end CommandLine

end ModalNotes
