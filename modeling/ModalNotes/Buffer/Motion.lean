import ModalNotes.Buffer.Basic
import ModalNotes.Document.Word

/-! Cursor motions. -/
namespace ModalNotes

inductive Motion
  | forward
  | back
  | up
  | down
  | wordForward
  | wordBack
  | lineHead
  | lineEnd
  | top
  | bottom
  deriving DecidableEq, Repr

namespace Motion

def name : Motion → Text
  | forward => "forward".toList
  | back => "back".toList
  | up => "up".toList
  | down => "down".toList
  | wordForward => "word_forward".toList
  | wordBack => "word_back".toList
  | lineHead => "head".toList
  | lineEnd => "end".toList
  | top => "top".toList
  | bottom => "bottom".toList

def all : List Motion :=
  [forward, back, up, down, wordForward, wordBack, lineHead, lineEnd, top, bottom]

def ofName? (name : Text) : Except Fault Motion :=
  match all.find? (·.name == name) with
  | some motion => .ok motion
  | none => .error (.unknownMotion name)

def isVertical : Motion → Bool
  | up | down | top | bottom => true
  | _ => false

def target (m : Motion) (d : Document) (c : Cursor) : Except Fault Cursor :=
  match m with
  | forward => (d.shownLine? c.row).map fun line => ⟨c.row, min (c.col + 1) line.length⟩
  | back => .ok ⟨c.row, c.col - 1⟩
  | up => .ok (d.clamp ((c.row : Int) - 1) c.col)
  | down => .ok (d.clamp (c.row + 1) c.col)
  | wordForward => d.nextWord c
  | wordBack => d.prevWord c
  | lineHead => .ok ⟨c.row, 0⟩
  | lineEnd => (d.shownLine? c.row).map fun line => ⟨c.row, line.length⟩
  | top => .ok (d.clamp 0 c.col)
  | bottom => .ok (d.clamp d.lastRow c.col)

end Motion

namespace Buffer

def jump (row col : Int) : Run Buffer Unit :=
  Run.modify fun b => { b with cursor := b.document.clamp row col }

def move (m : Motion) : Run Buffer Bool := do
  let b ← Run.get
  let target ← Run.ofExcept (m.target b.document b.cursor)
  Run.put { b with cursor := target }
  pure (target != b.cursor)

end Buffer

end ModalNotes
