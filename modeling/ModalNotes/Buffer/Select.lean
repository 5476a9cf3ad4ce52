import ModalNotes.Buffer.Change

/-! The selection: copied, cut, or turned into an anchor. -/
namespace ModalNotes.Buffer

def startSelection : Run Buffer Unit := Run.modify fun b => { b with selectionStart := some b.cursor }

def cancelSelection : Run Buffer Unit := Run.modify fun b => { b with selectionStart := none }

/-- The selected range; the character under the later end belongs to it. -/
def selectionRange : Run Buffer (Option Selection) := do
  let b ← Run.get
  match b.selection with
  | none => pure none
  | some s =>
    let length ← Run.ofExcept (b.document.lineLength s.stop.row)
    pure (some ⟨s.start, s.stop.row, min (s.stop.col + 1) length⟩)

def copy : Run Buffer Bool := do
  match ← selectionRange with
  | none => pure false
  | some range =>
    let b ← Run.get
    let start ← Run.ofExcept (b.document.offset range.start)
    let stop ← Run.ofExcept (b.document.offset range.stop)
    Run.put (b.yank (characterwise ((b.text.drop start).take (stop - start))))
    cancelSelection
    pure true

def cut : Run Buffer Bool := do
  match ← selectionRange with
  | none => pure false
  | some range =>
    cancelSelection
    if range.start = range.stop then pure false
    else do
      let removed ← replaceRange range.start.toPoint range.stop.toPoint [] "cut".toList
      Run.modify (·.yank (characterwise removed))
      pure true

def addAnchor (row startCol endCol : Int) (id : Option Int) : Run Buffer Int := do
  let b ← Run.get
  let (anchors, id) ← Run.ofExcept (b.anchors.add row startCol endCol id)
  Run.put { b with anchors }
  pure id

def removeAnchor (id : Int) : Run Buffer (Option Anchor) := do
  let b ← Run.get
  Run.put { b with anchors := b.anchors.erase id }
  pure (b.anchors.get? id)

/-- Anchors the selected part of the first selected line. -/
def anchorSelection : Run Buffer (Option Int) := do
  let selected ← selectionRange
  cancelSelection
  match selected with
  | none => pure none
  | some range =>
    let b ← Run.get
    let row := range.start.row
    let startCol := range.start.col
    let endCol ←
      if range.stop.row = row then pure range.stop.col
      else Run.ofExcept (b.document.lineLength row)
    if endCol ≤ startCol then pure none
    else do
      let id ← addAnchor row startCol endCol none
      Run.modify fun b => { b with newAnchor := some id }
      Run.log (Entry.event Level.info Logger.root "buffer.anchor".toList [
        ("anchor_id".toList, .int id), ("row".toList, .nat row),
        ("cols".toList, .tuple [.nat startCol, .nat endCol])])
      pure (some id)

def takeNewAnchor : Run Buffer (Option Int) := do
  let b ← Run.get
  Run.put { b with newAnchor := none }
  pure b.newAnchor

def anchorText (id : Int) : Run Buffer Text := do
  let b ← Run.get
  match b.anchors.get? id with
  | none => pure []
  | some anchor =>
    if anchor.deleted then pure []
    else do
      let line ← Run.ofExcept (b.document.lineAt anchor.row)
      pure (line.slice anchor.startCol anchor.endCol)

end ModalNotes.Buffer
