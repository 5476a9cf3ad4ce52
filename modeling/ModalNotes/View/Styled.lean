import ModalNotes.View.Picture

/-! Styled text: the text of a picture with links, the selection, search hits, hop matches and the cursor
marked by spans, in this order. -/
namespace ModalNotes

structure StyleSpan where
  start : Int
  stop : Int
  style : Text
  deriving DecidableEq, Repr

structure Styled where
  plain : Text
  justify : Alignment
  spans : List StyleSpan := []
  deriving DecidableEq, Repr

namespace Styled

/- Control characters that a terminal would act on are dropped from the text. -/
def isDropped (c : Char) : Bool := c.toNat == 7 || c.toNat == 8 || (11 ≤ c.toNat && c.toNat ≤ 13)

def ofText (s : Text) (justify : Alignment) : Styled := ⟨s.filter (!isDropped ·), justify, []⟩

def mark (t : Styled) (style : String) (start stop : Int) : Styled :=
  let length : Int := t.plain.length
  let start := if start < 0 then length + start else start
  let stop := if stop < 0 then length + stop else stop
  if length ≤ start || stop ≤ start then t
  else { t with spans := t.spans ++ [⟨start, min length stop, style.toList⟩] }

end Styled

namespace Picture

def linkStyle : String := "underline bold cyan"
def selectionStyle : String := "reverse"
def cursorStyle : String := "reverse blink"
def searchStyle : String := "black on yellow"
def hopStyle : String := "bold magenta"

def startsFrom (k : Nat) : List Text → List Nat
  | [] => []
  | line :: rest => k :: startsFrom (k + line.length + 1) rest

def starts (m : Picture) : List Nat := startsFrom 0 m.text.lines

def rowStart (m : Picture) (row : Int) : Except Fault Int :=
  match Text.nth? m.starts row with
  | some start => .ok start
  | none => .error .lineMissing

def offset (m : Picture) (p : Point) : Except Fault Int := (m.rowStart p.row).map (· + p.col)

def markAnchor (m : Picture) (t : Styled) (a : AnchorSpan) : Except Fault Styled := do
  if a.row < m.text.lines.length then
    let base ← m.rowStart a.row
    .ok (t.mark linkStyle (base + a.startCol) (base + a.endCol))
  else .ok t

def markSelection (m : Picture) (t : Styled) : Except Fault Styled := do
  match m.selection with
  | none => .ok t
  | some (first, last) =>
    let start ← m.offset first
    let stop ← m.offset last
    .ok (t.mark selectionStyle start (stop + 1))

def markSearch (m : Picture) (t : Styled) : Styled :=
  match m.search with
  | none | some [] => t
  | some pattern =>
    (Text.occurrences pattern m.text).foldl
      (fun t (i : Nat) => t.mark searchStyle i (i + pattern.length : Nat)) t

def markHop (m : Picture) (t : Styled) (p : Point) : Except Fault Styled := do
  let start ← m.offset p
  .ok (t.mark hopStyle start (start + 2))

/-- One more cell at the end of the text gives the cursor a place to stand. -/
def styled (m : Picture) : Except Fault Styled := do
  let t := Styled.ofText (m.text ++ [' ']) m.alignment
  let t ← m.anchors.foldlM m.markAnchor t
  let t ← m.markSelection t
  let t ← m.hop.foldlM m.markHop (m.markSearch t)
  let cursor ← m.offset m.cursor
  .ok (t.mark cursorStyle cursor (cursor + 1))

end Picture

end ModalNotes
