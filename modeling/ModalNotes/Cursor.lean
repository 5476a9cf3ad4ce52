/-! Positions in a document. A cursor is a row and a column, counted from zero; a point is a position as
a caller gives it, which may lie anywhere. -/
namespace ModalNotes

structure Cursor where
  row : Nat := 0
  col : Nat := 0
  deriving DecidableEq, Repr

structure Point where
  row : Int
  col : Int
  deriving DecidableEq, Repr

namespace Cursor

def toPoint (c : Cursor) : Point := ⟨c.row, c.col⟩

def le (a b : Cursor) : Bool := a.row < b.row || (a.row == b.row && a.col ≤ b.col)

def down (c : Cursor) : Cursor := ⟨c.row + 1, c.col⟩

end Cursor

structure Selection where
  start : Cursor
  stop : Cursor
  deriving DecidableEq, Repr

def Selection.between (a b : Cursor) : Selection := if a.le b then ⟨a, b⟩ else ⟨b, a⟩

end ModalNotes
