import ModalNotes.Buffer.Basic

/-! Searching for a pattern and hopping to a pair of characters. -/
namespace ModalNotes.Buffer

def setSearchPattern (pattern : Option Text) : Run Buffer Unit :=
  Run.modify fun b => { b with searchPattern := pattern.filter (!·.isEmpty) }

def clearSearch : Run Buffer Unit := Run.modify fun b => { b with searchPattern := none }

def searchWith (choose : Text → Text → Nat → Option Nat) : Run Buffer Bool := do
  let b ← Run.get
  match b.searchPattern with
  | none => pure false
  | some pattern =>
    let offset ← Run.ofExcept (b.document.offset b.cursor)
    match choose pattern b.text offset with
    | none => pure false
    | some found =>
      Run.put { b with cursor := b.document.locate found }
      pure true

def searchForward : Run Buffer Bool :=
  searchWith fun pattern text offset =>
    (Text.occurrenceFrom? pattern text (offset + 1)).or (Text.occurrenceFrom? pattern text 0)

/-- To the last occurrence before the cursor, or else to the last of all. An occurrence starts before the
cursor if it ends less than the pattern's length behind it, but none does at the start of the text. -/
def searchBack : Run Buffer Bool :=
  searchWith fun pattern text offset =>
    let before := if offset = 0 then none
      else Text.occurrenceWithin? pattern text (offset - 1 + pattern.length)
    before.or (Text.occurrenceWithin? pattern text text.length)

def matchesOf (lines : List Text) (key : Text) : List Cursor :=
  lines.zipIdx.flatMap fun (line, row) => (Text.occurrences key line).map fun col => ⟨row, col⟩

def setHopPattern (key : Text) : Run Buffer Nat := do
  let b ← Run.get
  let found := matchesOf b.document.lines key
  Run.put { b with hopKey := some key, hopMatches := found }
  Run.log (Entry.event Level.debug Logger.root "buffer.hop".toList [
    ("key".toList, .text key), ("matches".toList, .nat found.length)])
  pure found.length

def hopTo (index : Int) : Run Buffer Bool := do
  let b ← Run.get
  match if index < 0 then none else b.hopMatches[index.toNat]? with
  | none => pure false
  | some c =>
    Run.put { b with cursor := c }
    pure true

def clearHop : Run Buffer Unit := Run.modify fun b => { b with hopKey := none, hopMatches := [] }

end ModalNotes.Buffer
