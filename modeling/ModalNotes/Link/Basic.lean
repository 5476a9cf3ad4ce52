import ModalNotes.Anchor

/-! Links: spans of a note's text that lead to another note, and the rows they are stored as. -/
namespace ModalNotes

structure LinkRow where
  parent : Int
  anchor : Int
  row : Int
  startCol : Int
  endCol : Int
  linked : Int
  deriving DecidableEq, Repr

structure Link where
  parent : Option Int
  anchor : Int
  linked : Int
  row : Int
  startCol : Int
  endCol : Int
  /-- A row of this link is stored. -/
  saved : Bool := false
  /-- The span has moved since the row was written. -/
  updated : Bool := false
  /-- The anchored text is gone. -/
  deleted : Bool := false
  /-- Tells the link from one that stood under its anchor before. -/
  serial : Nat := 0
  deriving DecidableEq, Repr

namespace Link

def geometry (l : Link) : Int × Int × Int := (l.row, l.startCol, l.endCol)

def follow (l : Link) (a : Anchor) : Link :=
  { l with row := a.row, startCol := a.startCol, endCol := a.endCol, updated := true }

def toAnchor (l : Link) : Anchor := { row := l.row, startCol := l.startCol, endCol := l.endCol }

def toRow (l : Link) : Except Fault LinkRow :=
  match l.parent with
  | none => .error .linkWithoutNote
  | some parent => .ok ⟨parent, l.anchor, l.row, l.startCol, l.endCol, l.linked⟩

def ofRow (r : LinkRow) : Link :=
  { parent := some r.parent, anchor := r.anchor, linked := r.linked, row := r.row,
    startCol := r.startCol, endCol := r.endCol, saved := true }

def covers (l : Link) (p : Point) : Bool := l.toAnchor.covers p

end Link

end ModalNotes
