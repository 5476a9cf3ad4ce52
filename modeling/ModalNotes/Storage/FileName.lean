import ModalNotes.Text.Integer
import ModalNotes.Text.Percent

/-! Whether tables can be kept under a file name. A name that begins with `file:` may be a reference, which
carries options for the way the file is opened. Names are taken as bytes, each shown as the character of
its value. -/
namespace ModalNotes

abbrev Folders := Bool → List Text → Bool

namespace FileName

def bytesOf (s : Text) : Text := (s.flatMap Text.encodedBytes).map Char.ofNat

def steps (path : Text) : List Text :=
  ((Text.splitOn '/' path).filter fun part => !part.isEmpty && part != ['.']).foldl
    (fun done part => if part = ['.', '.'] then done.dropLast else done ++ [part]) []

/-- A name has at most 255 bytes, and the journal that is kept beside the file adds eight. -/
def longestName : Nat := 247

def canBeMade (folders : Folders) (path : Text) : Bool :=
  let absolute := path.head? == some '/'
  let parts := steps path
  !folders absolute parts && folders absolute parts.dropLast &&
    parts.getLast?.all (·.length ≤ longestName)

def isInMemory (path : Text) : Bool := path.isEmpty || path == ":memory:".toList

inductive Access
  | readOnly
  | existing
  | create
  | memory
  deriving DecidableEq, Repr

def Access.rank : Access → Nat
  | readOnly => 0
  | existing => 1
  | create => 2
  | memory => 3

def Access.named : List (Text × Access) :=
  [("ro".toList, readOnly), ("rw".toList, existing), ("rwc".toList, create), ("memory".toList, memory)]

def Access.change (a b : Access) : Option Access :=
  if b = memory || b.rank ≤ a.rank then some b else none

structure Reference where
  path : Text
  options : List (Text × Text)
  deriving DecidableEq, Repr

def decoded : Text → Text
  | '%' :: a :: b :: rest =>
    match Text.percentByte? a b with
    | some 0 => []
    | some byte => Char.ofNat byte :: decoded rest
    | none => '%' :: decoded (a :: b :: rest)
  | c :: rest => c :: decoded rest
  | [] => []

def option? (piece : Text) : Option (Text × Text) :=
  let (name, value) := Text.cutAt '=' piece
  let name := decoded name
  if name.isEmpty then none else some (name, decoded (value.getD []))

def start : Text := "file:".toList

def cutMachine (s : Text) : Text × Text :=
  match s with
  | '/' :: '/' :: rest => (rest.takeWhile (· != '/'), rest.dropWhile (· != '/'))
  | s => ([], s)

/-- Files are looked for on this machine only; a number sign ends the reference. -/
def reference? (name : Text) : Option Reference :=
  let (machine, rest) := cutMachine (name.drop start.length)
  if machine.isEmpty || machine == "localhost".toList then
    let (path, query) := Text.cutAt '?' (rest.takeWhile (· != '#'))
    let pieces := (query.map (Text.splitOn '&')).getD []
    some { path := decoded path, options := pieces.filterMap option? }
  else none

def engines : List Text := [
  "unix".toList, "unix-none".toList, "unix-dotfile".toList, "unix-excl".toList, "memdb".toList]

def caches : List Text := ["shared".toList, "private".toList]

def applyOption (chosen : Access × Text) (o : Text × Text) : Option (Access × Text) :=
  if o.1 = "vfs".toList then some (chosen.1, o.2)
  else if o.1 = "cache".toList then if caches.contains o.2 then some chosen else none
  else if o.1 = "mode".toList then do
    let access ← Access.named.lookup o.2
    some (← chosen.1.change access, chosen.2)
  else some chosen

def isTrue (value : Text) : Bool :=
  match value.takeWhile Char.isDigit with
  | [] => ["true".toList, "yes".toList, "on".toList].contains (value.map Char.toLower)
  | digits => Text.natOfDigits (digits.map fun c => c.toNat - 48) % 256 != 0

def Reference.canHold (folders : Folders) (r : Reference) : Bool :=
  match r.options.foldlM applyOption (Access.create, "unix".toList) with
  | none => false
  | some (access, engine) =>
    engines.contains engine && access != .readOnly &&
      (isInMemory r.path || access == .memory ||
        !(r.options.lookup "immutable".toList).any isTrue &&
          (engine == "memdb".toList ||
            access == .create && (r.options.lookup "modeof".toList).isNone &&
              canBeMade folders r.path))

/-- References are followed only if that is asked for; otherwise they are names like any other. -/
def canHold (folders : Folders) (allowReference : Bool) (name : Text) : Bool :=
  let name := bytesOf name
  if allowReference && start.isPrefixOf name then (reference? name).any (·.canHold folders)
  else isInMemory name || canBeMade folders name

end FileName

end ModalNotes
