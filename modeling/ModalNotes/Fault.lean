import ModalNotes.Text.Integer
import ModalNotes.Text.Quoted

/-! What can go wrong, by cause, and the message of each cause. -/
namespace ModalNotes

inductive Leg
  | note
  | update
  | insert
  | delete
  | commit
  deriving DecidableEq, Repr

def Leg.name : Leg → Text
  | note => "note".toList
  | update => "update".toList
  | insert => "insert".toList
  | delete => "delete".toList
  | commit => "commit".toList

inductive Request
  | create (title : Text)
  | save (title : Text)
  | load (id : Int)
  | links (id : Int)
  | lookUp (title : Text)
  | list
  | delete (id : Int)
  deriving DecidableEq, Repr

inductive Fault
  | lineMissing
  | shownLineMissing
  | rowOutOfRange
  | columnOutOfRange
  | emptyAnchor
  | anchorTaken (id : Int)
  | notANumber (s : Text)
  | tooManyDigits (count : Nat)
  | tooLongToWrite
  | notAReal (s : Text)
  | severalNumbers
  | severalReals
  | notASwitch (word : Text)
  | unknownMotion (name : Text)
  | unknownAlignment (name : Text)
  | emptyKey
  | emptyActionId
  | noHandler
  | emptyBindingId
  | emptyBindingMode
  | emptyBindingAction
  | unknownAction (id : Text)
  | unknownBinding (id : Text)
  | bindingToUnknownAction (binding action : Text)
  | actionTaken (id : Text)
  | bindingTaken (id : Text)
  | slotTaken (token mode holder : Text)
  | foreignRow (anchor parent : Int)
  | anchorLinked (anchor : Int)
  | anchorLost (anchor : Int)
  | unsavedNote
  | unboundNote
  | linkWithoutNote
  | reported (message : Text)
  | syncFailed (failures : List (Leg × Fault))
  | noteNotFound (id : Int)
  | titleTaken (title : Text)
  | requestFailed (request : Request) (cause : Fault)
  | tableMissing (table : Text)
  | brokenReference
  | cannotOpen
  | nameWithNul
  | pluginMissing (name : Text)
  | unknownIsolation
  | tooWideForOption
  | tooWideForStorage
  | untitledTarget
  | unsupportedLevel (name : Text)
  | unknownLevel (name : Text)
  | configAndPreset
  | unknownPreset (name : Text)
  deriving Repr

namespace Request

def failure : Request → Text
  | create title => "Could not create note '".toList ++ title ++ ['\'']
  | save title => "Could not save note '".toList ++ title ++ ['\'']
  | load id => "Could not load note ".toList ++ Text.ofInt id
  | links id => "Could not load links of note ".toList ++ Text.ofInt id
  | lookUp title => "Could not look up '".toList ++ title ++ ['\'']
  | list => "Could not list notes".toList
  | delete id => "Could not delete note ".toList ++ Text.ofInt id

end Request

namespace Fault

def inQuotes (s : Text) : Text := '\'' :: s ++ ['\'']

def digitLimit : Text :=
  "Exceeds the limit (".toList ++ Text.ofNat Text.maxDigits ++
    " digits) for integer string conversion".toList

def raiseLimit : Text := "; use sys.set_int_max_str_digits() to increase the limit".toList

mutual

def message : Fault → Text
  | lineMissing => "list index out of range".toList
  | shownLineMissing => "tuple index out of range".toList
  | rowOutOfRange => "Row out of range".toList
  | columnOutOfRange => "Column out of range".toList
  | emptyAnchor => "Anchor must span at least one character".toList
  | anchorTaken id => "Anchor id ".toList ++ Text.ofInt id ++ " already registered".toList
  | notANumber s => "invalid literal for int() with base 10: ".toList ++ (Text.quoted s).take 200
  | tooManyDigits count =>
    digitLimit ++ ": value has ".toList ++ Text.ofNat count ++ " digits".toList ++ raiseLimit
  | tooLongToWrite => digitLimit ++ raiseLimit
  | notAReal s => "could not convert string to float: ".toList ++ Text.quoted s
  | severalNumbers =>
    "int() argument must be a string, a bytes-like object or a real number, not 'tuple'".toList
  | severalReals => "float() argument must be a string or a real number, not 'tuple'".toList
  | notASwitch word => "String is not true/false: ".toList ++ Text.quoted word
  | unknownMotion name => Text.quoted name ++ " is not a valid CursorMove".toList
  | unknownAlignment name => Text.quoted name ++ " is not a valid Alignment".toList
  | emptyKey => "key cannot be empty".toList
  | emptyActionId => "ActionRef id cannot be empty".toList
  | noHandler => "handler must be callable".toList
  | emptyBindingId => "binding id cannot be empty".toList
  | emptyBindingMode => "binding mode cannot be empty".toList
  | emptyBindingAction => "binding action_id cannot be empty".toList
  | unknownAction id => "Action ".toList ++ inQuotes id ++ " is not registered".toList
  | unknownBinding id => "Binding ".toList ++ inQuotes id ++ " is not registered".toList
  | bindingToUnknownAction binding action =>
    "Binding ".toList ++ inQuotes binding ++ " names unknown action ".toList ++ inQuotes action
  | actionTaken id => "Action ".toList ++ inQuotes id ++ " already registered".toList
  | bindingTaken id => "Binding id ".toList ++ inQuotes id ++ " already registered".toList
  | slotTaken token mode holder =>
    inQuotes token ++ " in ".toList ++ mode ++ " mode is taken by ".toList ++ holder
  | foreignRow anchor parent =>
    "Row for anchor ".toList ++ Text.ofInt anchor ++ " belongs to note ".toList ++ Text.ofInt parent
  | anchorLinked anchor => "Anchor ".toList ++ Text.ofInt anchor ++ " already linked".toList
  | anchorLost anchor =>
    "Link anchor ".toList ++ Text.ofInt anchor ++ " missing from the anchor table".toList
  | unsavedNote => "Cannot sync links of an unsaved note".toList
  | unboundNote => "Note leg did not bind a parent note id".toList
  | linkWithoutNote => "Link has no parent note yet".toList
  | reported message => message
  | syncFailed failures => "Link sync failed (".toList ++ failureList failures ++ [')']
  | noteNotFound id => "Note ".toList ++ Text.ofInt id ++ " not found".toList
  | titleTaken title => "A note titled ".toList ++ inQuotes title ++ " already exists".toList
  | requestFailed request cause => request.failure ++ ": ".toList ++ message cause
  | tableMissing table => "(sqlite3.OperationalError) no such table: ".toList ++ table
  | brokenReference => "(sqlite3.IntegrityError) FOREIGN KEY constraint failed".toList
  | cannotOpen => "(sqlite3.OperationalError) unable to open database file".toList
  | nameWithNul => "embedded null byte".toList
  | pluginMissing name => "Can't load plugin: ".toList ++ name
  | unknownIsolation =>
    "isolation_level string must be '', 'DEFERRED', 'IMMEDIATE', or 'EXCLUSIVE'".toList
  | tooWideForOption => "Python int too large to convert to C int".toList
  | tooWideForStorage => "Python int too large to convert to SQLite INTEGER".toList
  | untitledTarget => "Linked note needs a title".toList
  | unsupportedLevel name => "Unsupported log level ".toList ++ inQuotes name ++ ['.']
  | unknownLevel name => "Unknown level: ".toList ++ Text.quoted name
  | configAndPreset => "Provide either `config` or `preset`, not both.".toList
  | unknownPreset name => "Unknown preset ".toList ++ inQuotes name ++ ['.']

def failureList : List (Leg × Fault) → Text
  | [] => []
  | [(leg, fault)] => leg.name ++ ": ".toList ++ message fault
  | (leg, fault) :: rest =>
    leg.name ++ ": ".toList ++ message fault ++ "; ".toList ++ failureList rest

end

/-- The message as a log line quotes it: a failed look-up shows its message in quotes. -/
def reason : Fault → Text
  | f@(unknownAction _) | f@(unknownBinding _) | f@(bindingToUnknownAction _ _) =>
    Text.quoted f.message
  | f => f.message

end Fault

end ModalNotes
