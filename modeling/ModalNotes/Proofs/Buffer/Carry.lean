import ModalNotes.Buffer.Select
import ModalNotes.Proofs.Anchor.Carry
import ModalNotes.Proofs.Buffer.Record

/-! What an edit does to the anchors of a buffer, one by one. It depends on nothing but where the anchor
and the replaced text lie: the other anchors have no part in it, as long as none of them stops the walk. -/
namespace ModalNotes

namespace Buffer

variable {b : Buffer}

structure Reads (b : Buffer) (id : Int) (edited : Bool) (begin : Nat) (text : Text) : Prop where
  anchor : ∃ a, b.anchors.get? id = some a ∧ a.deleted = false ∧ a.edited = edited ∧
    a.Spans b.document ∧ a.first b.document = begin ∧ a.text b.document = text
  text : (anchorText id).Ends b fun read later => read = text ∧ later = b

theorem readsSpan {id : Int} {a : Anchor} (found : b.anchors.get? id = some a) (live : a.deleted = false)
    (spans : a.Spans b.document) :
    b.Reads id a.edited (a.first b.document) (a.text b.document) := by
  refine ⟨⟨a, found, live, rfl, spans, rfl, rfl⟩, ?_⟩
  obtain ⟨line, ok, slice⟩ := Anchor.lineSlice spans
  unfold anchorText
  rw [Run.endsBind, Run.endsGet]
  simp only [found, live, Bool.false_eq_true, if_false]
  rw [Run.endsBind, Run.endsOfExcept]
  exact ⟨line, ok, Run.endsPure.mpr ⟨slice, rfl⟩⟩

theorem readsTaken {later : Buffer} {id : Int} {a placed : Anchor} {begin : Nat} {piece : Text}
    (found : later.anchors.get? id = some placed) (live : a.deleted = false)
    (takes : Anchor.Takes a placed later.document begin piece) :
    later.Reads id placed.edited begin piece.firstLine := by
  have reads := readsSpan found (takes.deleted.trans live) takes.spans
  rwa [takes.first, takes.text] at reads

/- What an edit makes of an anchor. One that the replaced text does not reach into keeps its characters, at
the place where they stand by then; one that lies in the replaced text is gone; of any other there remains
what was not replaced, with the new text where that comes to lie between, up to the first line end. -/
theorem editShifts (sound : b.document.Sound) (reach : b.anchors.Reaches b.document) {e : Edit}
    (ordered : e.start ≤ e.stop) :
    (edit e).Ends b fun _ later => later.document = b.edited e ∧
      ∀ id a, b.anchors.get? id = some a →
        (a.deleted = true → later.anchors.get? id = some a) ∧
        (a.deleted = false → a.Spans b.document →
          b.Reads id a.edited (a.first b.document) (a.text b.document) ∧
          if e.stop ≤ a.first b.document ∨ a.last b.document ≤ e.start then
            later.Reads id a.edited
              (if e.stop ≤ a.first b.document then
                a.first b.document + e.text.length - (e.stop - e.start) else a.first b.document)
              (a.text b.document)
          else if e.start ≤ a.first b.document ∧ a.last b.document ≤ e.stop then
            later.anchors.get? id = some { a with deleted := true }
          else
            later.Reads id true
              (if a.first b.document < e.start then a.first b.document else e.start + e.text.length)
              (a.remains b.document e.start e.stop e.text).firstLine) := by
  refine Run.endsMono (editReaches reach e) fun _ later edits => ⟨edits.document, ?_⟩
  intro id a found
  have moved : later.anchors.get? id =
      some (Anchor.carried b.document later.document e.start e.stop e.text.length a) := by
    rw [edits.anchors, Table.getMap, found, edits.document]
    rfl
  constructor
  · intro gone
    rw [moved, Anchor.carriedDeleted gone]
  intro live spans
  have ascends := Anchor.firstLtLast spans
  refine ⟨readsSpan found live spans, ?_⟩
  split
  · rename_i clear
    have takes := Anchor.carriedClear (t := e.text) sound live spans ordered clear
    have edited := (Anchor.takesClean sound spans takes).2
    rw [← editedSpliced, ← edits.document] at takes edited
    have reads := readsTaken moved live takes
    rwa [edited, Text.firstLineSelf (Anchor.textClean sound spans),
      Anchor.firstKeptClear spans clear] at reads
  split
  · rename_i reached inside
    rw [moved, Anchor.carriedSwallowed live spans ordered reached inside.1 inside.2]
  · rename_i reached spared
    have takes := Anchor.carriedCut (t := e.text) sound live spans ordered reached spared
    rw [← editedSpliced, ← edits.document] at takes
    have reads := readsTaken (a := { a with edited := true }) moved live takes
    rwa [takes.edited, Bool.true_or, Anchor.firstKeptReached reached] at reads

theorem lineEndInAnchor :
    let b := { ofText "see here\nand there".toList 10 with anchors := ⟨[(1, ⟨0, 4, 8, false, false⟩)]⟩ }
    let e : Edit := { label := [], start := 6, stop := 7, text := "a\nb".toList }
    b.document.Sound ∧ b.anchors.Reaches b.document ∧ e.start ≤ e.stop ∧
      b.Reads 1 false 4 "here".toList ∧
      (edit e).Ends b fun _ later => later.text = "see hea\nbe\nand there".toList ∧
        later.Reads 1 true 4 "hea".toList := by
  intro b e
  have sound : b.document.Sound := Document.soundOfText _
  have spans : Anchor.Spans ⟨0, 4, 8, false, false⟩ b.document := by decide
  have reach : b.anchors.Reaches b.document :=
    AnchorTable.fitsReaches (by decide : b.anchors.Fits b.document)
  refine ⟨sound, reach, by decide, ?_⟩
  have shifts := editShifts sound reach (e := e) (by decide)
  obtain ⟨_, ok, document, each⟩ := shifts
  obtain ⟨before, after⟩ := (each 1 _ rfl).2 rfl spans
  rw [if_neg (by decide), if_neg (by decide)] at after
  refine ⟨before, _, ok, ?_, after⟩
  rw [text, document]
  decide

end Buffer

end ModalNotes
