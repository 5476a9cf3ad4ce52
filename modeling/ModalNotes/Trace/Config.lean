import ModalNotes.Fault
import ModalNotes.Table
import ModalNotes.Text.Case
import ModalNotes.Trace.Entry

/-! Where log entries go: the configuration, its presets, and the lines it writes to the console and to
the log file. -/
namespace ModalNotes

abbrev Environment := Table Text Text

namespace Environment

def keyOf (name : String) : Text := "LINKPAD_".toList ++ name.toList

def lookUp (env : Environment) (name : String) : Option Text := env.get? (keyOf name)

def nonempty? (env : Environment) (name : String) : Option Text :=
  (env.lookUp name).filter (!·.isEmpty)

def flagWords : List Text := ["1".toList, "true".toList, "yes".toList, "on".toList]

def flag (env : Environment) (name : String) (fallback : Bool) : Bool :=
  match env.lookUp name with
  | none => fallback
  | some raw => flagWords.contains (Text.lower raw)

end Environment

inductive LevelSetting
  | named (name : Text)
  | number (n : Int)
  deriving DecidableEq, Repr

structure LogConfig where
  level : LevelSetting := .named "INFO".toList
  console : Bool := true
  json : Bool := false
  file : Text := []
  deriving DecidableEq, Repr

namespace LogConfig

def logFile (env : Environment) (fallback : String) : Text :=
  (env.nonempty? "LOG_FILE").getD fallback.toList

def ofPreset (env : Environment) (preset : Text) : Except Fault LogConfig :=
  let key := Text.lower preset
  if key = "development".toList then .ok { level := .named "DEBUG".toList }
  else if key = "production".toList then
    .ok { console := false, file := logFile env "linkpad.log" }
  else if key = "performance".toList || key = "performance_analysis".toList then
    .ok { level := .named "DEBUG".toList, console := false, json := true
          file := logFile env "linkpad-performance.log" }
  else .error (.unknownPreset preset)

def ofEnvironment (env : Environment) : LogConfig where
  level := .named (Text.upper ((env.nonempty? "LOG_LEVEL").getD "WARNING".toList))
  console := !env.flag "DISABLE_CONSOLE" true
  json := env.flag "LOG_JSON" false
  file := logFile env ""

def checkLevel (c : LogConfig) : Except Fault Unit :=
  match c.level with
  | .number _ => .ok ()
  | .named name => if (Level.ofName? name).isSome then .ok () else .error (.unknownLevel name)

def checked (c : LogConfig) : Except Fault LogConfig := do
  c.checkLevel
  if c.file.contains '\x00' then .error .nameWithNul else .ok c

def resolve (env : Environment) (config : Option LogConfig) (preset : Option Text) :
    Except Fault LogConfig := do
  match config, preset.filter (!·.isEmpty) with
  | some _, some _ => .error .configAndPreset
  | none, some preset => checked (← ofPreset env preset)
  | some config, none => checked config
  | none, none => checked (ofEnvironment env)

def threshold (c : LogConfig) : Int :=
  let level := match c.level with
    | .number n => n
    | .named name => (Level.ofName? name).getD 0
  if level = 0 then Level.warning else level

end LogConfig

namespace Entry

def inTree (e : Entry) : Bool :=
  e.logger == Logger.root || (Logger.root ++ ['.']).isPrefixOf e.logger

/- Loggers of their own have the usual threshold; levels that are not positive are off. -/
def isEnabled (e : Entry) (threshold : Int) : Bool :=
  0 < e.level && (if e.inTree then threshold else Level.warning) ≤ e.level

def hex4 (n : Nat) : Text :=
  let digits := Nat.toDigits 16 n
  '\\' :: 'u' :: List.replicate (4 - digits.length) '0' ++ digits

def jsonChar (c : Char) : Text :=
  let n := c.toNat
  if c = '"' || c = '\\' then ['\\', c]
  else if c = '\n' then ['\\', 'n']
  else if c = '\r' then ['\\', 'r']
  else if c = '\t' then ['\\', 't']
  else if n = 8 then ['\\', 'b']
  else if n = 12 then ['\\', 'f']
  else if 32 ≤ n && n < 127 then [c]
  else if n < 0x10000 then hex4 n
  else hex4 (0xd800 + (n - 0x10000) / 0x400) ++ hex4 (0xdc00 + (n - 0x10000) % 0x400)

def jsonText (s : Text) : Text := '"' :: s.flatMap jsonChar ++ ['"']

def jsonField (key : String) (value : Text) : Text :=
  jsonText key.toList ++ ": ".toList ++ jsonText value

def formatted (e : Entry) (json : Bool) (time : Text) : Text :=
  if json then
    '\x7b' :: Text.joinWith ", ".toList [
      jsonField "time" time, jsonField "level" (Level.name e.level), jsonField "logger" e.logger,
      jsonField "message" e.message] ++ ['\x7d']
  else
    time ++ " [".toList ++ Level.name e.level ++ "] ".toList ++ e.logger ++ " - ".toList ++ e.message

def plainLine (e : Entry) : Text :=
  Level.name e.level ++ ' ' :: e.logger ++ ' ' :: e.message

end Entry

namespace LogConfig

def entries (c : LogConfig) (trace : List Event) : List Entry :=
  trace.filterMap fun
    | .log e => if e.isEnabled c.threshold then some e else none
    | .modeChanged _ => none

def fileText (c : LogConfig) (time : Text) (trace : List Event) : Text :=
  ((c.entries trace).filter (·.inTree)).flatMap fun e => e.formatted c.json time ++ ['\n']

def consoleText (c : LogConfig) (time : Text) (trace : List Event) : Text :=
  (c.entries trace).flatMap fun e =>
    if !e.inTree then e.message ++ ['\n']
    else if c.console then e.formatted c.json time ++ ['\n']
    else []

end LogConfig

def recordedLines (level : Int) (trace : List Event) : List Text :=
  (({ level := .number level } : LogConfig).entries trace).filterMap fun e =>
    if e.inTree then some e.plainLine else none

end ModalNotes
