import ModalNotes.Cursor
import ModalNotes.Fault

/-! Documents: numbered versions of a list of lines. A position is a cursor or an offset into the whole
text; `offset` and `locate` go from one to the other. -/
namespace ModalNotes

structure Document where
  lines : List Text := [[]]
  version : Nat := 0
  deriving DecidableEq, Repr

namespace Document

def ofText (s : Text) : Document := ⟨s.lines, 0⟩

def ofLines (lines : List Text) : Document := ⟨if lines.isEmpty then [[]] else lines, 0⟩

def text (d : Document) : Text := Text.unlines d.lines

def replaceText (d : Document) (s : Text) : Document := ⟨s.lines, d.version + 1⟩

def lineCount (d : Document) : Nat := d.lines.length

def lastRow (d : Document) : Nat := d.lines.length - 1

def line? (d : Document) (row : Nat) : Except Fault Text :=
  match d.lines[row]? with
  | some line => .ok line
  | none => .error .lineMissing

/-- A row below zero counts from the last line. -/
def lineAt (d : Document) (row : Int) : Except Fault Text :=
  match Text.nth? d.lines row with
  | some line => .ok line
  | none => .error .lineMissing

def width (d : Document) (row : Nat) : Nat := (d.lines.getD row []).length

def lineLength (d : Document) (row : Nat) : Except Fault Nat := (d.line? row).map List.length

def start (d : Document) (row : Nat) : Nat :=
  (d.lines.take row).foldr (fun line after => line.length + 1 + after) 0

def offset (d : Document) (c : Cursor) : Except Fault Nat :=
  if c.row ≤ d.lineCount then .ok (d.start c.row + c.col) else .error .lineMissing

def offsetOf (d : Document) (p : Point) : Except Fault Int :=
  if p.row ≤ d.lineCount then .ok (d.start p.row.toNat + p.col) else .error .lineMissing

def locateIn : List Text → Nat → Cursor
  | [], _ => ⟨0, 0⟩
  | [line], n => ⟨0, min n line.length⟩
  | line :: rest, n =>
    if n ≤ line.length then ⟨0, n⟩ else (locateIn rest (n - (line.length + 1))).down

def locate (d : Document) (offset : Nat) : Cursor := locateIn d.lines offset

def clamp (d : Document) (row col : Int) : Cursor :=
  let row := min row.toNat d.lastRow
  ⟨row, min col.toNat (d.width row)⟩

def ensure (d : Document) (p : Point) : Except Fault Cursor :=
  if p.row < 0 || d.lineCount ≤ p.row then .error .rowOutOfRange
  else if p.col < 0 || d.width p.row.toNat < p.col then .error .columnOutOfRange
  else .ok ⟨p.row.toNat, p.col.toNat⟩

end Document

end ModalNotes
