import ModalNotes.Link.Sync
import ModalNotes.Storage.Connection

/-! Storage: the committed tables, the copy that an open transaction works on, and the connection that
carries every statement to them. Requests of their own commit at once; the legs of a save write to the
copy, which a commit takes over and a rollback drops. -/
namespace ModalNotes

structure Storage where
  committed : Database := {}
  working : Database := {}
  connection : Connection := {}
  /-- Legs that fail before they do anything, and the message they fail with. -/
  failing : List Leg := []
  failure : Text := []
  deriving DecidableEq, Repr

namespace Storage

variable {α : Type}

def debug {σ : Type} (logger line : Text) : Run σ Unit :=
  Run.log { level := Level.debug, logger, head := line }

def send (st : Statement) (numbers : List Int) (d : Database) (f : Database → Except Fault α) :
    Run Storage α := fun s =>
  let (connection, result) := s.connection.send st numbers d f
  ⟨{ s with connection }, [], result⟩

def asRequest (request : Request) (r : Except Fault α) : Except Fault α :=
  match r with
  | .error (.tableMissing t) => .error (.requestFailed request (.tableMissing t))
  | .error .brokenReference => .error (.requestFailed request .brokenReference)
  | r => r

def within (request : Request) (m : Run Storage α) : Run Storage α := fun s =>
  let o := m s
  { o with result := asRequest request o.result }

def query (request : Request) (st : Statement) (numbers : List Int)
    (f : Database → Except Fault α) : Run Storage α :=
  within request do
    let s ← Run.get
    send st numbers s.committed f

def noteLine (verb : String) (id : Int) (title : Text) : Text :=
  verb.toList ++ " note ".toList ++ Text.ofInt id ++ " (".toList ++ Text.quoted title ++ [')']

def create (title body : Text) (hasLinks : Bool) : Run Storage Int := do
  let (committed, id) ← query (.create title) .addNote [] (·.addNote title body hasLinks)
  Run.modify fun s => { s with committed }
  debug Logger.noteTable (noteLine "created" id title)
  pure id

def writeNote (d : Database) (id : Option Int) (title body : Text) (hasLinks : Bool) :
    Run Storage (Database × Int) := do
  match id with
  | none => send .addNote [] d (·.addNote title body hasLinks)
  | some id =>
    match ← send .noteById [id] d (·.note? id) with
    | none => Run.fail (.noteNotFound id)
    | some _ =>
      let d ← Run.ofExcept (d.setNote id title body hasLinks)
      pure (d, id)

def write (id : Option Int) (title body : Text) (hasLinks : Bool) : Run Storage Int := do
  let s ← Run.get
  let (working, id) ← within (.save title) (writeNote s.working id title body hasLinks)
  Run.modify fun s => { s with working }
  debug Logger.noteTable (noteLine "wrote" id title)
  pure id

def note? (id : Int) : Run Storage (Option NoteRow) := query (.load id) .noteById [id] (·.note? id)

def idOfTitle? (title : Text) : Run Storage (Option Int) :=
  query (.lookUp title) .idOfTitle [] (·.idOfTitle? title)

def titles : Run Storage (List (Int × Text)) := query .list .titles [] (·.titles)

def rowsOf (parent : Int) : Run Storage (List LinkRow) :=
  query (.links parent) .rowsOf [parent] (·.rowsOf parent)

def delete (id : Int) : Run Storage Bool :=
  within (.delete id) do
    let s ← Run.get
    let d ← send .deleteRowsOf [id, id] s.committed (·.removeRowsOf id)
    let (committed, found) ← send .deleteNote [id] d (·.removeNote id)
    Run.modify fun s => { s with committed }
    pure found

/-- All notes with their rows; one that cannot be read does not hide the others. -/
def survey : Run Storage (List (Except Fault (Option NoteRow × List LinkRow))) := do
  let found ← titles
  found.mapM fun (id, _) => Run.attempt do
    let note ← note? id
    let rows ← rowsOf id
    pure (note, rows)

def change (st : Statement) (numbers : List Int) (f : Database → Except Fault Database) :
    Run Storage Unit := do
  let s ← Run.get
  let working ← send st numbers s.working f
  Run.modify fun s => { s with working }

def updateRow (parent : Int) (l : Link) : Run Storage Unit :=
  change .updateRow [l.row, l.startCol, l.endCol, parent, l.linked, l.anchor] (·.updateRow parent l)

def insertRow (parent : Int) (l : Link) : Run Storage Unit :=
  change .insertRow [l.anchor, l.row, l.startCol, l.endCol, parent, l.linked] (·.insertRow parent l)

def deleteRows (parent : Int) (links : List Link) : Run Storage Unit :=
  let anchors := links.map Link.anchor
  change (.deleteRows anchors.length) (parent :: anchors) (·.deleteRows parent anchors)

def legLine (leg : Leg) (count : Nat) (parent : Int) : Text :=
  leg.name ++ " leg: ".toList ++ Text.ofNat count ++ " link(s) of note ".toList ++ Text.ofInt parent

def guarded (leg : Leg) (m : Run Storage Unit) : Run Storage Unit := do
  let s ← Run.get
  if s.failing.contains leg then Run.fail (.reported s.failure) else m

def runLeg (leg : Leg) (f : Int → List Link → Run Storage Unit) (parent : Int) (links : List Link) :
    Run Storage Unit :=
  guarded leg do
    f parent links
    debug Logger.linkTable (legLine leg links.length parent)

def begin (s : Storage) : Storage := { s with working := s.committed }

def keep (s : Storage) : Storage := { s with committed := s.working }

def backend : Backend Storage where
  start := begin
  update := runLeg .update fun parent links => links.forM (updateRow parent)
  insert := runLeg .insert fun parent links => links.forM (insertRow parent)
  delete := runLeg .delete deleteRows
  commit := guarded .commit (Run.modify keep)
  rollback := begin
  close s := s

def drop (table : Text) (s : Storage) : Storage :=
  { s with
    committed := s.committed.drop table
    connection := { s.connection with missed := none } }

end Storage

end ModalNotes
