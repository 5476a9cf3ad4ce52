import ModalNotes.Anchor
import ModalNotes.Register
import ModalNotes.Run
import ModalNotes.Timeline

/-! Buffers: a document with a cursor, a selection, a search, hop matches, registers, undo history and
anchors. Every change of the text goes through `edit`, which carries the anchors along, moves the
cursor and records the replacement. -/
namespace ModalNotes

inductive Alignment
  | left
  | center
  | right
  deriving DecidableEq, Repr

namespace Alignment

def name : Alignment → Text
  | left => "left".toList
  | center => "center".toList
  | right => "right".toList

def ofName? (name : Text) : Except Fault Alignment :=
  match [left, center, right].find? (·.name == name) with
  | some alignment => .ok alignment
  | none => .error (.unknownAlignment name)

end Alignment

structure Replacement where
  label : Text
  offset : Nat
  removed : Text
  inserted : Text
  cursorBefore : Cursor
  cursorAfter : Cursor
  deriving DecidableEq, Repr

structure Buffer where
  name : Text := "default".toList
  document : Document := {}
  cursor : Cursor := {}
  selectionStart : Option Cursor := none
  searchPattern : Option Text := none
  alignment : Alignment := .left
  hopKey : Option Text := none
  hopMatches : List Cursor := []
  registers : RegisterBank := RegisterBank.fresh
  history : Timeline Replacement := {}
  anchors : AnchorTable := {}
  /-- The anchor drawn last, until it is taken. -/
  newAnchor : Option Int := none
  deriving DecidableEq, Repr

structure Edit where
  label : Text
  start : Nat
  stop : Nat
  text : Text
  /-- Where the cursor goes; behind the new text if nothing is given. -/
  landing : Option Cursor := none
  recorded : Bool := true
  /-- Whether the removed text goes to the unnamed register. -/
  killed : Bool := false
  deriving DecidableEq, Repr

namespace Buffer

def ofDocument (document : Document) (maxHistory : Int) (anchors : AnchorTable) : Buffer :=
  { document, anchors, history := { limit := maxHistory.toNat } }

def ofText (text : Text) (maxHistory : Int) : Buffer :=
  ofDocument (Document.ofText text) maxHistory {}

def text (b : Buffer) : Text := b.document.text

def version (b : Buffer) : Nat := b.document.version

def selection (b : Buffer) : Option Selection :=
  b.selectionStart.map fun start => Selection.between start b.cursor

def yank (b : Buffer) (value : Register) : Buffer :=
  { b with registers := b.registers.write RegisterBank.unnamed value }

def applyEdit (e : Edit) : Run Buffer Text := fun b =>
  let old := b.text
  let removed := (old.drop e.start).take (e.stop - e.start)
  let after := b.document.replaceText (old.take e.start ++ e.text ++ old.drop e.stop)
  let (anchors, shifted) := b.anchors.shift b.document after e.start e.stop e.text.length
  let changed := { b with document := after, anchors }
  match shifted with
  | .error fault => ⟨changed, [], .error fault⟩
  | .ok () =>
    let landing := e.landing.getD (after.locate (e.start + e.text.length))
    let cursor := after.clamp landing.row landing.col
    let replacement : Replacement := {
      label := e.label, offset := e.start, removed, inserted := e.text,
      cursorBefore := b.cursor, cursorAfter := cursor }
    let history := if e.recorded then b.history.push replacement else b.history
    ⟨{ changed with cursor, history }, [], .ok removed⟩

def editSpan (b : Buffer) (label : Text) : Span :=
  let name := "buffer::".toList ++ label
  Span.make Logger.buffer name name [("buffer".toList, .text b.name)]

def edit (e : Edit) : Run Buffer Text := do
  let b ← Run.get
  let removed ← Run.spanned (b.editSpan e.label) (applyEdit e)
  if e.killed && !removed.isEmpty then Run.modify (·.yank ⟨removed, "character".toList⟩)
  pure removed

def replaceRange (start stop : Point) (text label : Text) : Run Buffer Text := do
  let b ← Run.get
  let start ← Run.ofExcept (b.document.ensure start)
  let stop ← Run.ofExcept (b.document.ensure stop)
  let range := Selection.between start stop
  let first ← Run.ofExcept (b.document.offset range.start)
  let last ← Run.ofExcept (b.document.offset range.stop)
  edit { label, start := first, stop := last, text }

end Buffer

end ModalNotes
