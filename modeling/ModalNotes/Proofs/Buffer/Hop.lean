import ModalNotes.Buffer.Change
import ModalNotes.Buffer.Find
import ModalNotes.Buffer.Motion
import ModalNotes.Buffer.Select
import ModalNotes.Proofs.Leaves

/-! Hops and everything else: only hopping itself touches the key and the matches of a hop, also in a
buffer on which an operation fails. -/
namespace ModalNotes.Buffer

open Run (Leaves leavesBind leavesPure leavesOfExcept leavesGet leavesReads leavesPut leavesSpanned
  leavesLog)

def hop (b : Buffer) : Option Text × List Cursor := (b.hopKey, b.hopMatches)

theorem hopApplyEdit (e : Edit) (b : Buffer) : Leaves hop (applyEdit e) b := by
  unfold Leaves applyEdit
  dsimp only
  split <;> rfl

theorem hopEdit (e : Edit) (b : Buffer) : Leaves hop (edit e) b := by
  refine leavesGet (leavesBind (leavesSpanned (hopApplyEdit e b)) fun removed t => ?_)
  split
  · exact leavesBind rfl fun _ u => leavesPure removed u
  · exact leavesPure removed t

theorem hopReplaceRange (start stop : Point) (text label : Text) (b : Buffer) :
    Leaves hop (replaceRange start stop text label) b :=
  leavesGet (leavesReads fun _ => leavesReads fun _ => leavesReads fun _ => leavesReads fun _ =>
    hopEdit _ b)

theorem hopInsertText (text : Text) (b : Buffer) : Leaves hop (insertText text) b :=
  leavesGet (leavesReads fun _ => leavesBind (hopEdit _ b) fun _ t => leavesPure () t)

theorem hopMade {α : Type} {m : Run Buffer α} {b : Buffer} (h : Leaves hop m b) :
    Leaves hop (do let _ ← m; pure true) b := leavesBind h fun _ t => leavesPure true t

theorem hopThen {α : Type} {m : Run Buffer α} {f : α → Buffer → Buffer} {b : Buffer} (h : Leaves hop m b)
    (same : ∀ a t, hop (f a t) = hop t) :
    Leaves hop (do let a ← m; Run.modify (f a); pure true) b :=
  leavesBind h fun a t => leavesBind (same a t) fun _ u => leavesPure true u

theorem hopDeleteChar (b : Buffer) : Leaves hop deleteChar b := by
  refine leavesGet (leavesReads fun offset => ?_)
  split
  · exact leavesPure false b
  · exact hopMade (hopEdit _ b)

theorem hopDeleteNextChar (b : Buffer) : Leaves hop deleteNextChar b := by
  refine leavesGet (leavesReads fun offset => ?_)
  split
  · exact leavesPure false b
  · exact hopMade (hopEdit _ b)

theorem hopDeleteToLineEnd (b : Buffer) : Leaves hop deleteToLineEnd b := by
  refine leavesGet (leavesReads fun length => ?_)
  split
  · exact leavesPure false b
  · exact hopThen (hopReplaceRange _ _ _ _ b) fun _ _ => rfl

theorem hopDeleteLine (moveUp : Bool) (b : Buffer) : Leaves hop (deleteLine moveUp) b := by
  refine leavesGet (leavesReads fun line => ?_)
  split
  · exact leavesPure false b
  · refine leavesReads fun e => hopThen (hopEdit e b) fun _ t => ?_
    dsimp only
    split <;> rfl

theorem hopDeleteNextWord (b : Buffer) : Leaves hop deleteNextWord b := by
  refine leavesGet (leavesReads fun line => ?_)
  split
  · exact hopDeleteNextChar b
  · exact hopThen (hopReplaceRange _ _ _ _ b) fun _ _ => rfl

theorem hopDeleteWord (b : Buffer) : Leaves hop deleteWord b := by
  refine leavesGet ?_
  dsimp only
  split
  · exact hopDeleteChar b
  · exact leavesReads fun line => hopThen (hopReplaceRange _ _ _ _ b) fun _ _ => rfl

theorem hopOpenLineBelow (b : Buffer) : Leaves hop openLineBelow b :=
  leavesGet (leavesReads fun _ => leavesBind (leavesPut rfl) fun _ t => hopInsertText ['\n'] t)

theorem hopOpenLineAbove (b : Buffer) : Leaves hop openLineAbove b :=
  leavesGet (leavesReads fun _ => leavesBind (hopEdit _ b) fun _ t => leavesPure () t)

theorem hopPaste (b : Buffer) : Leaves hop paste b := by
  refine leavesGet ?_
  dsimp only
  split
  · exact leavesPure false b
  split
  · exact leavesReads fun _ => leavesReads fun _ => hopMade (hopEdit _ b)
  · exact hopMade (hopInsertText _ b)

theorem hopUndo (b : Buffer) : Leaves hop undo b := by
  refine leavesGet ?_
  split
  · exact leavesPure false b
  · exact leavesBind (leavesPut rfl) fun _ t => hopMade (hopEdit _ t)

theorem hopRedo (b : Buffer) : Leaves hop redo b := by
  refine leavesGet ?_
  split
  · exact leavesPure false b
  · exact leavesBind (leavesPut rfl) fun _ t => hopMade (hopEdit _ t)

/- What no selection and no anchor is a part of. -/
def seat (b : Buffer) : (Option Text × List Cursor) × Document × Cursor := (b.hop, b.document, b.cursor)

/- What no drawing of an anchor is a part of. -/
def spared (b : Buffer) : ((Option Text × List Cursor) × Document × Cursor) × RegisterBank ×
    Timeline Replacement := (b.seat, b.registers, b.history)

theorem sparedSelectionRange (b : Buffer) : Leaves spared selectionRange b := by
  refine leavesGet ?_
  split
  · exact leavesPure none b
  · exact leavesReads fun _ => leavesPure _ b

theorem seatSelectionRange (b : Buffer) : Leaves seat selectionRange b :=
  congrArg Prod.fst (sparedSelectionRange b)

theorem hopSelectionRange (b : Buffer) : Leaves hop selectionRange b := congrArg Prod.fst (seatSelectionRange b)

theorem seatCancelSelection (b : Buffer) : Leaves seat cancelSelection b := rfl

theorem hopCancelSelection (b : Buffer) : Leaves hop cancelSelection b := rfl

theorem seatCopy (b : Buffer) : Leaves seat copy b := by
  refine leavesBind (seatSelectionRange b) fun range t => ?_
  split
  · exact leavesPure false t
  · exact leavesGet (leavesReads fun _ => leavesReads fun _ => leavesBind (leavesPut rfl) fun _ u =>
      leavesBind (seatCancelSelection u) fun _ v => leavesPure true v)

theorem hopCopy (b : Buffer) : Leaves hop copy b := congrArg Prod.fst (seatCopy b)

theorem hopCut (b : Buffer) : Leaves hop cut b := by
  refine leavesBind (hopSelectionRange b) fun range t => ?_
  split
  · exact leavesPure false t
  · refine leavesBind (hopCancelSelection t) fun _ u => ?_
    split
    · exact leavesPure false u
    · exact hopThen (hopReplaceRange _ _ _ _ u) fun _ _ => rfl

theorem sparedAddAnchor (row startCol endCol : Int) (id : Option Int) (b : Buffer) :
    Leaves spared (addAnchor row startCol endCol id) b :=
  leavesGet (leavesReads fun _ => leavesBind (leavesPut rfl) fun _ t => leavesPure _ t)

theorem sparedAnchorSelection (b : Buffer) : Leaves spared anchorSelection b := by
  refine leavesBind (sparedSelectionRange b) fun range t =>
    leavesBind (m := cancelSelection) rfl fun _ u => ?_
  split
  · exact leavesPure none u
  · rename_i range
    have drawn : ∀ (endCol : Nat) (v : Buffer), Leaves spared (do
        if endCol ≤ range.start.col then pure none
        else do
          let id ← addAnchor range.start.row range.start.col endCol none
          Run.modify fun b => { b with newAnchor := some id }
          Run.log (Entry.event Level.info Logger.root "buffer.anchor".toList [
            ("anchor_id".toList, .int id), ("row".toList, .nat range.start.row),
            ("cols".toList, .tuple [.nat range.start.col, .nat endCol])])
          pure (some id)) v := by
      intro endCol v
      split
      · exact leavesPure none v
      · exact leavesBind (sparedAddAnchor _ _ _ _ v) fun id w =>
          leavesBind rfl fun _ x =>
            leavesBind (leavesLog _ x) fun _ y => leavesPure _ y
    refine leavesGet ?_
    dsimp only
    split
    · exact leavesBind (leavesPure _ u) drawn
    · exact leavesReads fun length => drawn length u

theorem seatAnchorSelection (b : Buffer) : Leaves seat anchorSelection b :=
  congrArg Prod.fst (sparedAnchorSelection b)

theorem hopAnchorSelection (b : Buffer) : Leaves hop anchorSelection b :=
  congrArg Prod.fst (seatAnchorSelection b)

theorem hopMove (m : Motion) (b : Buffer) : Leaves hop (move m) b :=
  leavesGet (leavesReads fun _ => leavesBind (leavesPut rfl) fun _ t => leavesPure _ t)

def still (b : Buffer) : (Option Text × List Cursor) × Document × Option Cursor :=
  (b.hop, b.document, b.selectionStart)

theorem stillSearchWith (choose : Text → Text → Nat → Option Nat) (b : Buffer) :
    Leaves still (searchWith choose) b := by
  refine leavesGet ?_
  split
  · exact leavesPure false b
  · refine leavesReads fun offset => ?_
    split
    · exact leavesPure false b
    · exact leavesBind (leavesPut rfl) fun _ t => leavesPure true t

theorem hopSearchWith (choose : Text → Text → Nat → Option Nat) (b : Buffer) :
    Leaves hop (searchWith choose) b := congrArg Prod.fst (stillSearchWith choose b)

structure Finds (lines : List Text) (key : Text) (found : List Cursor) : Prop where
  order : found.Pairwise fun c d => c.le d = true ∧ c ≠ d
  exact : ∀ c, c ∈ found ↔ ∃ line, lines[c.row]? = some line ∧ c.col ≤ line.length ∧
    key <+: line.drop c.col

theorem matchesFind (lines : List Text) (key : Text) : Finds lines key (matchesOf lines key) where
  order := by
    have rows : lines.zipIdx.Pairwise fun a b => a.2 < b.2 := by
      have indices : (lines.zipIdx.map Prod.snd).Pairwise (· < ·) := by
        rw [List.zipIdx_map_snd]
        exact List.pairwise_lt_range'
      exact List.pairwise_map.mp indices
    refine List.pairwise_flatMap.mpr ⟨fun a _ => ?_, rows.imp fun {a b} above => ?_⟩
    · refine List.pairwise_map.mpr ((Text.pairwise_occurrences key a.1).imp fun {i j} before => ?_)
      simp [Cursor.le]
      omega
    · intro c left d right
      obtain ⟨i, -, rfl⟩ := List.mem_map.mp left
      obtain ⟨j, -, rfl⟩ := List.mem_map.mp right
      simp [Cursor.le]
      omega
  exact c := by
    constructor
    · intro member
      obtain ⟨⟨line, row⟩, inside, place⟩ := List.mem_flatMap.mp member
      obtain ⟨col, stands, rfl⟩ := List.mem_map.mp place
      obtain ⟨short, here⟩ := Text.mem_occurrences.mp stands
      exact ⟨line, List.mem_zipIdx_iff_getElem?.mp inside, short, here⟩
    · rintro ⟨line, found, short, here⟩
      exact List.mem_flatMap.mpr ⟨(line, c.row), List.mem_zipIdx_iff_getElem?.mpr found,
        List.mem_map.mpr ⟨c.col, Text.mem_occurrences.mpr ⟨short, here⟩, rfl⟩⟩

end ModalNotes.Buffer
