import ModalNotes.Text.Ranges

/-! White space: the separators of lines, paragraphs and words, and the blanks at the ends of a text. -/
namespace ModalNotes.Text

def blankRanges : List (Nat × Nat) :=
  [(9, 13), (28, 32), (133, 133), (160, 160), (5760, 5760), (8192, 8202), (8232, 8233),
    (8239, 8239), (8287, 8287), (12288, 12288)]

def isBlank (c : Char) : Bool := inRanges blankRanges c.toNat

def stripLeft (s : Text) : Text := s.dropWhile isBlank

def stripRight (s : Text) : Text := (s.reverse.dropWhile isBlank).reverse

def strip (s : Text) : Text := stripRight (stripLeft s)

end ModalNotes.Text
