import ModalNotes.Link.Basic
import ModalNotes.Run

/-! The stored tables: notes with unique titles, and link rows whose two notes must exist. A table that
was dropped fails everything that needs it; the numbers that tables hold fit into 64 bits. -/
namespace ModalNotes

structure NoteRow where
  id : Int
  title : Text
  body : Text
  hasLinks : Bool
  deriving DecidableEq, Repr

/-- Notes in order of their ids, link rows in the order in which they were inserted. -/
structure Database where
  notes : Option (List NoteRow) := some []
  links : Option (List LinkRow) := some []
  deriving DecidableEq, Repr

namespace Database

def notesTable : Text := "notes".toList
def linksTable : Text := "links".toList

def needNotes (d : Database) : Except Fault (List NoteRow) :=
  match d.notes with
  | some notes => .ok notes
  | none => .error (.tableMissing notesTable)

def needLinks (d : Database) : Except Fault (List LinkRow) :=
  match d.links with
  | some links => .ok links
  | none => .error (.tableMissing linksTable)

def fits (n : Int) : Bool := -0x8000000000000000 ≤ n && n < 0x8000000000000000

def drop (d : Database) (table : Text) : Database :=
  if table = notesTable then { d with notes := none } else { d with links := none }

def nextId (notes : List NoteRow) : Int := (notes.map NoteRow.id).foldl max 0 + 1

def addNote (d : Database) (title body : Text) (hasLinks : Bool) : Except Fault (Database × Int) := do
  let notes ← d.needNotes
  if notes.any (·.title == title) then .error (.titleTaken title)
  else
    let id := nextId notes
    if fits id then .ok ({ d with notes := some (notes ++ [⟨id, title, body, hasLinks⟩]) }, id)
    else .error .tooWideForStorage

def note? (d : Database) (id : Int) : Except Fault (Option NoteRow) := do
  let notes ← d.needNotes
  .ok (notes.find? (·.id == id))

def setNote (d : Database) (id : Int) (title body : Text) (hasLinks : Bool) :
    Except Fault Database := do
  let notes ← d.needNotes
  if notes.any (fun n => n.id != id && n.title == title) then .error (.titleTaken title)
  else .ok { d with
    notes := some (notes.map fun n => if n.id = id then ⟨id, title, body, hasLinks⟩ else n) }

def idOfTitle? (d : Database) (title : Text) : Except Fault (Option Int) := do
  let notes ← d.needNotes
  .ok ((notes.find? (·.title == title)).map NoteRow.id)

def titles (d : Database) : Except Fault (List (Int × Text)) := do
  let notes ← d.needNotes
  .ok (notes.map fun n => (n.id, n.title))

def removeRowsOf (d : Database) (id : Int) : Except Fault Database := do
  let links ← d.needLinks
  let _ ← d.needNotes
  .ok { d with links := some (links.filter fun r => r.parent != id && r.linked != id) }

def removeNote (d : Database) (id : Int) : Except Fault (Database × Bool) := do
  let _ ← d.needLinks
  let notes ← d.needNotes
  .ok ({ d with notes := some (notes.filter (·.id != id)) }, notes.any (·.id == id))

def rowsOf (d : Database) (parent : Int) : Except Fault (List LinkRow) := do
  let links ← d.needLinks
  .ok ((links.filter (·.parent == parent)).mergeSort fun a b => decide (a.anchor ≤ b.anchor))

def updateRow (d : Database) (parent : Int) (l : Link) : Except Fault Database := do
  let links ← d.needLinks
  .ok { d with
    links := some (links.map fun r =>
      if r.parent = parent && r.linked = l.linked && r.anchor = l.anchor then
        { r with row := l.row, startCol := l.startCol, endCol := l.endCol }
      else r) }

def insertRow (d : Database) (parent : Int) (l : Link) : Except Fault Database := do
  let links ← d.needLinks
  let notes ← d.needNotes
  if notes.any (·.id == parent) && notes.any (·.id == l.linked) then
    .ok { d with
      links := some (links ++ [⟨parent, l.anchor, l.row, l.startCol, l.endCol, l.linked⟩]) }
  else .error .brokenReference

def deleteRows (d : Database) (parent : Int) (anchors : List Int) : Except Fault Database := do
  let links ← d.needLinks
  let _ ← d.needNotes
  .ok { d with links := some (links.filter fun r => r.parent != parent || !anchors.contains r.anchor) }

end Database

end ModalNotes
