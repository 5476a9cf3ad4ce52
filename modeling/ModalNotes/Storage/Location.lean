import ModalNotes.Fault
import ModalNotes.Storage.FileName
import ModalNotes.Table
import ModalNotes.Text.Case
import ModalNotes.Text.Percent
import ModalNotes.Text.Real

/-! Where the notes are stored. A path names a file; behind a question mark it may carry options, which
are checked before the file is opened. -/
namespace ModalNotes

structure Location where
  file : Text
  options : Table Text (List Text) := {}
  deriving DecidableEq, Repr

namespace Location

def decodedWord (s : Text) : Text := Text.percentDecoded (s.map fun c => if c = '+' then ' ' else c)

def option? (piece : Text) : Option (Text × Text) :=
  match Text.cutAt '=' piece with
  | (name, some (c :: value)) => some (decodedWord name, decodedWord (c :: value))
  | _ => none

def addOption (options : Table Text (List Text)) (o : Text × Text) : Table Text (List Text) :=
  options.put o.1 ((options.get? o.1).getD [] ++ [o.2])

def optionsOf (query : Text) : Table Text (List Text) :=
  ((Text.splitOn '&' (query.takeWhile (· != '\n'))).filterMap option?).foldl addOption {}

def ofPath (path : Text) : Location :=
  match Text.cutAt '?' path with
  | (file, none) => { file := Text.percentDecoded file }
  | (file, some query) => { file := Text.percentDecoded file, options := optionsOf query }

def isPlainChar (c : Char) : Bool := c.isAlphanum || "_.-~".toList.contains c

def encodedFile (s : Text) : Text :=
  Text.percentEncoded (fun c => isPlainChar c || " +/".toList.contains c) s

def encodedWord (s : Text) : Text :=
  (Text.percentEncoded (fun c => isPlainChar c || c == ' ') s).map fun c => if c = ' ' then '+' else c

def pairs (l : Location) : List (Text × Text) :=
  (l.options.entries.mergeSort fun a b => Text.atMost a.1 b.1).flatMap fun o => o.2.map fun v => (o.1, v)

def url (l : Location) : Text :=
  let shown := l.pairs.map fun (name, value) => encodedWord name ++ '=' :: encodedWord value
  "sqlite:///".toList ++ encodedFile l.file ++
    if shown.isEmpty then [] else '?' :: Text.joinWith ['&'] shown

def valuesOf (l : Location) (name : String) : List Text := (l.options.get? name.toList).getD []

def onWords : List Text :=
  ["true".toList, "yes".toList, "on".toList, "y".toList, "t".toList, "1".toList]

def offWords : List Text :=
  ["false".toList, "no".toList, "off".toList, "n".toList, "f".toList, "0".toList]

def switch (l : Location) (name : String) : Except Fault Bool :=
  match l.valuesOf name with
  | [] => .ok false
  | [value] =>
    let word := Text.lower (Text.strip value)
    if onWords.contains word then .ok true
    else if offWords.contains word then .ok false
    else .error (.notASwitch word)
  | _ => .ok true

def checkReal (l : Location) (name : String) : Except Fault Unit :=
  match l.valuesOf name with
  | [] => .ok ()
  | [value] => if Text.isReal value then .ok () else .error (.notAReal value)
  | _ => .error .severalReals

def wholeNumber (l : Location) (name : String) : Except Fault Int :=
  match l.valuesOf name with
  | [] => .ok 0
  | [value] =>
    match Text.readSigned? value with
    | none => .error (.notANumber value)
    | some (negative, digits) =>
      if digits.length ≤ Text.maxDigits then .ok (Text.signedOf negative digits)
      else .error (.tooManyDigits digits.length)
  | _ => .error .severalNumbers

def needOptionWidth (n : Int) : Except Fault Unit :=
  if -0x80000000 ≤ n && n < 0x80000000 then .ok () else .error .tooWideForOption

def connectionOptions : List Text := [
  "uri".toList, "timeout".toList, "isolation_level".toList, "detect_types".toList,
  "check_same_thread".toList, "cached_statements".toList]

def tupled (values : List Text) : Text :=
  match values with
  | [value] => value
  | values => '(' :: Text.joinWith ", ".toList (values.map Text.quoted) ++ [')']

def reference (l : Location) : Text :=
  let others := l.options.entries.filter fun o => !connectionOptions.contains o.1
  let sorted := others.mergeSort fun a b => Text.atMost a.1 b.1
  let shown := sorted.map fun (name, values) => name ++ '=' :: tupled values
  if shown.isEmpty then l.file else l.file ++ '?' :: Text.joinWith ['&'] shown

def opened (folders : Folders) (l : Location) : Except Fault Location := do
  if let plugin :: _ := l.valuesOf "plugin" then .error (.pluginMissing plugin)
  let l := { l with options := l.options.erase "plugins".toList }
  let allowReference ← l.switch "uri"
  l.checkReal "timeout"
  let types ← l.wholeNumber "detect_types"
  let _ ← l.switch "check_same_thread"
  let cached ← l.wholeNumber "cached_statements"
  needOptionWidth types
  if 1 < (l.valuesOf "isolation_level").length then .error .unknownIsolation
  needOptionWidth cached
  let name := if allowReference then l.reference else l.file
  if name.contains '\x00' then .error .nameWithNul
  if FileName.canHold folders allowReference name then .ok l else .error .cannotOpen

end Location

end ModalNotes
