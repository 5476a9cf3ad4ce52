import ModalNotes.Buffer.Basic
import ModalNotes.Document.Word

/-! Insertions, deletions, pasting, undo and redo. Deletions put what they remove into the unnamed
register. A result says whether there was anything to do. -/
namespace ModalNotes.Buffer

def characterwise (text : Text) : Register := ⟨text, "character".toList⟩

def insertText (text : Text) : Run Buffer Unit := do
  let b ← Run.get
  let offset ← Run.ofExcept (b.document.offset b.cursor)
  let _ ← edit { label := "insert_text".toList, start := offset, stop := offset, text }

def insertNewline : Run Buffer Unit := insertText ['\n']

def tabText : Text := [' ', ' ', ' ', ' ']

def insertTab : Run Buffer Unit := insertText tabText

def deleteChar : Run Buffer Bool := do
  let b ← Run.get
  let offset ← Run.ofExcept (b.document.offset b.cursor)
  if offset = 0 then pure false
  else do
    let _ ← edit {
      label := "delete_char".toList, start := offset - 1, stop := offset, text := [], killed := true }
    pure true

def deleteNextChar : Run Buffer Bool := do
  let b ← Run.get
  let offset ← Run.ofExcept (b.document.offset b.cursor)
  if b.text.length ≤ offset then pure false
  else do
    let _ ← edit {
      label := "delete_next_char".toList, start := offset, stop := offset + 1, text := [],
      landing := some b.cursor, killed := true }
    pure true

def deleteToLineEnd : Run Buffer Bool := do
  let b ← Run.get
  let c := b.cursor
  let length ← Run.ofExcept (b.document.lineLength c.row)
  if length ≤ c.col then pure false
  else do
    let removed ← replaceRange c.toPoint ⟨c.row, length⟩ [] "delete_line_by_end".toList
    Run.modify (·.yank (characterwise removed))
    pure true

def lineDeletion (d : Document) (row : Nat) (line : Text) : Except Fault Edit := do
  let label := "delete_line".toList
  if d.lineCount = 1 then
    .ok { label, start := 0, stop := line.length, text := [], landing := some ⟨0, 0⟩ }
  else if row < d.lastRow then
    let start ← d.offset ⟨row, 0⟩
    let stop ← d.offset ⟨row + 1, 0⟩
    .ok { label, start, stop, text := [], landing := some ⟨row, 0⟩ }
  else
    let above ← d.lineLength (row - 1)
    let start ← d.offset ⟨row - 1, above⟩
    let stop ← d.offset ⟨row, line.length⟩
    .ok { label, start, stop, text := [], landing := some ⟨row - 1, 0⟩ }

def deleteLine (moveUp : Bool) : Run Buffer Bool := do
  let b ← Run.get
  let row := b.cursor.row
  let line ← Run.ofExcept (b.document.line? row)
  if b.document.lineCount = 1 && line.isEmpty then pure false
  else do
    let e ← Run.ofExcept (lineDeletion b.document row line)
    let _ ← edit e
    Run.modify fun b =>
      let b := b.yank (Register.linewise line)
      if moveUp && b.cursor.row == row && 0 < row then { b with cursor := ⟨row - 1, 0⟩ } else b
    pure true

def deleteNextWord : Run Buffer Bool := do
  let b ← Run.get
  let c := b.cursor
  let line ← Run.ofExcept (b.document.line? c.row)
  if line.length ≤ c.col then deleteNextChar
  else do
    let stop : Point := ⟨c.row, line.wordEnd c.col⟩
    let removed ← replaceRange c.toPoint stop [] "delete_next_word".toList
    Run.modify fun b => { b with cursor := c }.yank (characterwise removed)
    pure true

def deleteWord : Run Buffer Bool := do
  let b ← Run.get
  let c := b.cursor
  if c.col = 0 then deleteChar
  else do
    let line ← Run.ofExcept (b.document.line? c.row)
    let start : Point := ⟨c.row, line.wordBegin c.col⟩
    let removed ← replaceRange start c.toPoint [] "delete_word".toList
    Run.modify (·.yank (characterwise removed))
    pure true

def openLineBelow : Run Buffer Unit := do
  let b ← Run.get
  let length ← Run.ofExcept (b.document.lineLength b.cursor.row)
  Run.put { b with cursor := ⟨b.cursor.row, length⟩ }
  insertNewline

def openLineAbove : Run Buffer Unit := do
  let b ← Run.get
  let row := b.cursor.row
  let offset ← Run.ofExcept (b.document.offset ⟨row, 0⟩)
  let _ ← edit {
    label := "open_line_above".toList, start := offset, stop := offset, text := ['\n'],
    landing := some ⟨row, 0⟩ }

def paste : Run Buffer Bool := do
  let b ← Run.get
  let value := b.registers.read RegisterBank.unnamed
  let row := b.cursor.row
  if value.text.isEmpty then pure false
  else if value.isLinewise then do
    let length ← Run.ofExcept (b.document.lineLength row)
    let offset ← Run.ofExcept (b.document.offset ⟨row, length⟩)
    let _ ← edit {
      label := "paste".toList, start := offset, stop := offset, text := '\n' :: value.text,
      landing := some ⟨row + 1, 0⟩ }
    pure true
  else do
    insertText value.text
    pure true

def undo : Run Buffer Bool := do
  let b ← Run.get
  match b.history.undo? with
  | none => pure false
  | some (r, history) =>
    Run.put { b with history }
    let _ ← edit {
      label := "undo::".toList ++ r.label, start := r.offset, stop := r.offset + r.inserted.length,
      text := r.removed, landing := some r.cursorBefore, recorded := false }
    pure true

def redo : Run Buffer Bool := do
  let b ← Run.get
  match b.history.redo? with
  | none => pure false
  | some (r, history) =>
    Run.put { b with history }
    let _ ← edit {
      label := "redo::".toList ++ r.label, start := r.offset, stop := r.offset + r.removed.length,
      text := r.inserted, landing := some r.cursorAfter, recorded := false }
    pure true

end ModalNotes.Buffer
