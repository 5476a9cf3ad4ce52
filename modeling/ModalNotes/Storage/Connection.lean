import ModalNotes.Storage.Database

/-! The connection to the tables. A statement is prepared when it is sent for the first time, which needs
its tables; then its numbers are bound, and then it runs. A number outside 64 bits cannot be bound: that
is told as the failure that the connection still remembers, if there is one. -/
namespace ModalNotes

inductive Statement
  | titles
  | noteById
  | idOfTitle
  | addNote
  | rowsOf
  | updateRow
  | insertRow
  | deleteRows (count : Nat)
  | deleteRowsOf
  | deleteNote
  deriving DecidableEq, Repr

namespace Statement

/- Link rows refer to notes, so rows that come or go are checked against the notes. -/
def needsNotes : Statement → Bool
  | rowsOf | updateRow => false
  | _ => true

def needsLinks : Statement → Bool
  | titles | noteById | idOfTitle | addNote => false
  | _ => true

def isWriting : Statement → Bool
  | titles | noteById | idOfTitle | rowsOf => false
  | _ => true

def missingTable? (st : Statement) (d : Database) : Option Text :=
  if st.needsLinks && d.links.isNone then some Database.linksTable
  else if st.needsNotes && d.notes.isNone then some Database.notesTable
  else none

end Statement

structure Connection where
  /-- What has been prepared stays so, also when its tables are dropped. -/
  prepared : List Statement := []
  /-- The table that was missing when the last statement failed. -/
  missed : Option Text := none
  deriving DecidableEq, Repr

namespace Connection

def prepare (c : Connection) (st : Statement) (d : Database) : Connection × Except Fault Unit :=
  if c.prepared.contains st then (c, .ok ())
  else match st.missingTable? d with
    | some table => ({ c with missed := some table }, .error (.tableMissing table))
    | none => ({ prepared := st :: c.prepared, missed := none }, .ok ())

def begin (c : Connection) (st : Statement) : Connection :=
  if st.isWriting then { c with missed := none } else c

def bind (c : Connection) : List Int → Connection × Except Fault Unit
  | [] => (c, .ok ())
  | n :: rest =>
    if Database.fits n then bind { c with missed := none } rest
    else (c, .error ((c.missed.map Fault.tableMissing).getD .tooWideForStorage))

def finish {α : Type} (c : Connection) (r : Except Fault α) : Connection × Except Fault α :=
  match r with
  | .error (.tableMissing table) => ({ c with missed := some table }, r)
  | r => ({ c with missed := none }, r)

def send {α : Type} (c : Connection) (st : Statement) (numbers : List Int) (d : Database)
    (f : Database → Except Fault α) : Connection × Except Fault α :=
  match c.prepare st d with
  | (c, .error fault) => (c, .error fault)
  | (c, .ok _) =>
    match (c.begin st).bind numbers with
    | (c, .error fault) => (c, .error fault)
    | (c, .ok _) => c.finish (f d)

end Connection

end ModalNotes
