import ModalNotes.Cursor
import ModalNotes.Mode
import ModalNotes.Table
import ModalNotes.Trace.Value

/-! What a run leaves behind: log entries, and announcements that the mode changed. -/
namespace ModalNotes

namespace Level

def debug : Int := 10
def info : Int := 20
def warning : Int := 30
def error : Int := 40
def critical : Int := 50

def named : List (Text × Int) :=
  [("CRITICAL".toList, critical), ("FATAL".toList, critical), ("ERROR".toList, error),
    ("WARN".toList, warning), ("WARNING".toList, warning), ("INFO".toList, info),
    ("DEBUG".toList, debug), ("NOTSET".toList, 0)]

def ofName? (name : Text) : Option Int := named.lookup name

def name (level : Int) : Text :=
  if level = critical then "CRITICAL".toList
  else if level = error then "ERROR".toList
  else if level = warning then "WARNING".toList
  else if level = info then "INFO".toList
  else if level = debug then "DEBUG".toList
  else if level = 0 then "NOTSET".toList
  else "Level ".toList ++ Text.ofInt level

end Level

namespace Logger

def root : Text := "linkpad".toList
def buffer : Text := "linkpad.buffer".toList
def interpreter : Text := "linkpad.modes.interpreter".toList
def repetition : Text := "linkpad.modes.repeat".toList
def session : Text := "linkpad.session".toList
def linkStore : Text := "linkpad.links.store".toList
def linkSync : Text := "linkpad.links.sync".toList
def noteTable : Text := "linkpad.storage.note_repository".toList
def linkTable : Text := "linkpad.storage.link_repository".toList
def notes : Text := "linkpad.notes".toList
def screen : Text := "linkpad.adapters.textual".toList

end Logger

structure Entry where
  level : Int
  logger : Text
  head : Text
  fields : Table Text Text := {}
  deriving DecidableEq, Repr

namespace Entry

def message (e : Entry) : Text :=
  e.head ++ e.fields.entries.flatMap fun (key, value) => ' ' :: key ++ '=' :: value

def event (level : Int) (logger name : Text) (data : List (Text × Value)) : Entry :=
  ⟨level, logger, "event::".toList ++ name,
    Table.ofList (("event".toList, name) :: data.map fun (key, value) => (key, value.plain))⟩

end Entry

structure ModeChange where
  mode : Mode
  cursor : Cursor
  selection : Option Selection
  version : Nat
  deriving DecidableEq, Repr

inductive Event
  | log (entry : Entry)
  | modeChanged (change : ModeChange)
  deriving DecidableEq, Repr

end ModalNotes
