import ModalNotes.Buffer.Basic

/-! Pictures: what a host sees of a buffer. -/
namespace ModalNotes

structure AnchorSpan where
  id : Int
  row : Int
  startCol : Int
  endCol : Int
  deriving DecidableEq, Repr

structure Picture where
  text : Text
  cursor : Point
  selection : Option (Point × Point) := none
  alignment : Alignment := .left
  search : Option Text := none
  anchors : List AnchorSpan := []
  hop : List Point := []
  attributes : List (Text × Text) := []
  deriving DecidableEq, Repr

def Buffer.picture (b : Buffer) (attributes : List (Text × Text)) : Picture where
  text := b.text
  cursor := b.cursor.toPoint
  selection := b.selection.map fun s => (s.start.toPoint, s.stop.toPoint)
  alignment := b.alignment
  search := b.searchPattern
  anchors := b.anchors.live.map fun (id, a) => ⟨id, a.row, a.startCol, a.endCol⟩
  hop := b.hopMatches.map Cursor.toPoint
  attributes := attributes

end ModalNotes
