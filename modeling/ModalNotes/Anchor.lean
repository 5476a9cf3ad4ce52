import ModalNotes.Document
import ModalNotes.Table

/-! Anchors: spans of one line that follow the text when it changes. An anchor whose text is gone is
marked deleted and stays in the table. -/
namespace ModalNotes

structure Anchor where
  row : Int
  startCol : Int
  endCol : Int
  edited : Bool := false
  deleted : Bool := false
  deriving DecidableEq, Repr

namespace Anchor

def geometry (a : Anchor) : Int × Int × Int := (a.row, a.startCol, a.endCol)

def covers (a : Anchor) (p : Point) : Bool :=
  p.row == a.row && a.startCol ≤ p.col && p.col < a.endCol

def place (anchor : Anchor) (d : Document) (a b : Int) : Anchor :=
  let head := d.locate a.toNat
  let tail := d.locate b.toNat
  let edited := anchor.edited || tail.row != head.row
  let endCol := if tail.row = head.row then tail.col else d.width head.row
  if endCol ≤ head.col then { anchor with edited, deleted := true }
  else { anchor with row := head.row, startCol := head.col, endCol, edited }

/-- Carries an anchor across the replacement of the offsets from `start` to `stop` by `inserted`
characters. -/
def carry (before after : Document) (start stop inserted : Int) (anchor : Anchor) :
    Except Fault Anchor := do
  if anchor.deleted then .ok anchor
  else
    let a ← before.offsetOf ⟨anchor.row, anchor.startCol⟩
    let b ← before.offsetOf ⟨anchor.row, anchor.endCol⟩
    let delta := inserted - (stop - start)
    if b ≤ start then .ok anchor
    else if stop ≤ a then .ok (anchor.place after (a + delta) (b + delta))
    else if start ≤ a && b ≤ stop then .ok { anchor with deleted := true }
    else
      let a := if a < start then a else start + inserted
      let b := if stop < b then b + delta else start
      if b ≤ a then .ok { anchor with edited := true, deleted := true }
      else .ok ({ anchor with edited := true }.place after a b)

end Anchor

abbrev AnchorTable := Table Int Anchor

namespace AnchorTable

def nextId (t : AnchorTable) : Int :=
  match t.keys with
  | [] => 1
  | id :: ids => ids.foldl max id + 1

def add (t : AnchorTable) (row startCol endCol : Int) (id : Option Int) :
    Except Fault (AnchorTable × Int) :=
  if endCol ≤ startCol then .error .emptyAnchor
  else
    let id := id.getD t.nextId
    if t.contains id then .error (.anchorTaken id)
    else .ok (t.put id { row, startCol, endCol }, id)

def live (t : AnchorTable) : List (Int × Anchor) := t.entries.filter (!·.2.deleted)

def covering? (t : AnchorTable) (p : Point) : Option Int :=
  (t.live.find? (·.2.covers p)).map Prod.fst

def carryIn (carry : Anchor → Except Fault Anchor) :
    List (Int × Anchor) → List (Int × Anchor) × Except Fault Unit
  | [] => ([], .ok ())
  | (id, anchor) :: rest =>
    match carry anchor with
    | .error fault => ((id, anchor) :: rest, .error fault)
    | .ok moved =>
      let (more, result) := carryIn carry rest
      ((id, moved) :: more, result)

def shift (t : AnchorTable) (before after : Document) (start stop inserted : Int) :
    AnchorTable × Except Fault Unit :=
  let (entries, result) := carryIn (Anchor.carry before after start stop inserted) t.entries
  (⟨entries⟩, result)

end AnchorTable

end ModalNotes
