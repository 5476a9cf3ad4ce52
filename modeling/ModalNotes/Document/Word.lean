import ModalNotes.Document
import ModalNotes.Text.Alphanumeric
import ModalNotes.Text.Blank

/-! Words: runs of characters of one class, and the steps from one to the next. -/
namespace ModalNotes

inductive CharClass
  | blank
  | word
  | punctuation
  deriving DecidableEq, Repr

namespace CharClass

def of (c : Char) : CharClass :=
  if Text.isBlank c then blank
  else if Text.isAlphanumeric c || c == '_' then word
  else punctuation

def code : CharClass → Nat
  | blank => 0
  | word => 1
  | punctuation => 2

end CharClass

namespace Text

def skipBlank (line : Text) (col : Nat) : Nat :=
  col + ((line.drop col).takeWhile isBlank).length

def skipRun (line : Text) (col : Nat) : Nat :=
  match line.drop col with
  | [] => col
  | c :: rest => col + 1 + (rest.takeWhile (CharClass.of · == CharClass.of c)).length

def wordEnd (line : Text) (col : Nat) : Nat := skipRun line (skipBlank line col)

def wordBegin (line : Text) (col : Nat) : Nat :=
  match (line.take col).reverse.dropWhile isBlank with
  | [] => 0
  | c :: rest => (rest.dropWhile (CharClass.of · == CharClass.of c)).length

def nextWordCol (line : Text) (col : Nat) : Nat :=
  match line.drop col with
  | [] => col
  | c :: _ => skipBlank line (if CharClass.of c = .blank then col else skipRun line col)

end Text

namespace Document

def shownLine? (d : Document) (row : Nat) : Except Fault Text :=
  match d.lines[row]? with
  | some line => .ok line
  | none => .error .shownLineMissing

def nextWord (d : Document) (c : Cursor) : Except Fault Cursor :=
  match d.shownLine? c.row with
  | .error fault => .error fault
  | .ok line =>
    let col := line.nextWordCol c.col
    if col < line.length then .ok ⟨c.row, col⟩
    else match d.lines[c.row + 1]? with
      | some next => .ok ⟨c.row + 1, next.skipBlank 0⟩
      | none => .ok ⟨c.row, line.length⟩

def prevWord (d : Document) (c : Cursor) : Except Fault Cursor :=
  match c.row, c.col with
  | 0, 0 => .ok ⟨0, 0⟩
  | row + 1, 0 => (d.shownLine? row).map fun line => ⟨row, line.wordBegin line.length⟩
  | row, col => (d.shownLine? row).map fun line => ⟨row, line.wordBegin col⟩

end Document

end ModalNotes
