import ModalNotes.Proofs.Anchor.Order
import ModalNotes.Proofs.Buffer.Carry
import ModalNotes.Proofs.Buffer.Stable

/-! Anchors of a buffer neither collide nor change places. Two live anchors that are in order are in order
behind every edit, and so are all of them behind every sequence of operations. -/
namespace ModalNotes.Buffer

variable {b : Buffer}

theorem editOrdered (sound : b.document.Sound) (reach : b.anchors.Reaches b.document) {e : Edit}
    (le : e.start ≤ e.stop) {i j : Int} (fits : ∀ a, b.anchors.get? i = some a → a.Fits b.document)
    (fits' : ∀ a, b.anchors.get? j = some a → a.Fits b.document) (ordered : b.anchors.Ordered i j) :
    (edit e).Ends b fun _ later => later.anchors.Ordered i j := by
  refine Run.endsMono (editReaches reach e) fun _ later edits => ?_
  rw [edits.anchors, editedSpliced]
  exact AnchorTable.carriedOrdered sound le ordered fits fits'

structure Arranged (t : AnchorTable) (b : Buffer) : Prop where
  document : b.document.Sound
  anchors : b.anchors.Fits b.document
  order : ∀ i j, t.Ordered i j → b.anchors.Ordered i j

theorem arrangedSelf (sound : b.Sound) : Arranged b.anchors b :=
  ⟨sound.document, sound.anchors, fun _ _ ordered => ordered⟩

theorem Arranged.apart {t : AnchorTable} (h : Arranged t b) (apart : t.Apart) : b.anchors.Apart :=
  fun i j differs => (apart i j differs).imp (h.order i j) (h.order j i)

theorem arrangedEdit {t : AnchorTable} {e : Edit} (le : e.start ≤ e.stop) (h : Arranged t b) :
    Arranged t (edit e b).state := by
  have reach := AnchorTable.fitsReaches h.anchors
  obtain ⟨_, -, edits⟩ := editReaches reach e
  have placed : ∀ i a, b.anchors.get? i = some a → a.Fits b.document :=
    fun i a found => h.anchors i a (Table.memOfGet found)
  refine ⟨?_, ?_, fun i j ordered => ?_⟩
  · rw [edits.document]
    exact Document.soundSpliced b.document e.start e.stop e.text
  · rw [edits.document, edits.anchors]
    exact AnchorTable.carriedFits h.document h.anchors e.start e.stop e.text.length _
  · obtain ⟨_, -, kept⟩ := editOrdered h.document reach le (placed i) (placed j) (h.order i j ordered)
    exact kept

theorem arrangedGround {t : AnchorTable} (b c : Buffer) (same : c.ground = b.ground) (h : Arranged t b) :
    Arranged t c := by
  obtain ⟨document, anchors, -⟩ : c.document = b.document ∧ c.anchors = b.anchors ∧
      c.newAnchor = b.newAnchor := by simpa [ground] using same
  exact ⟨document ▸ h.document, by rw [document, anchors]; exact h.anchors, by rw [anchors]; exact h.order⟩

theorem stableArranged (t : AnchorTable) : Stable (Arranged t) :=
  ⟨arrangedGround, fun _ _ le h => arrangedEdit le h⟩

inductive Stroke
  | edit (e : Edit)
  | op (o : Op)

def Stroke.run : Stroke → Run Buffer Unit
  | .edit e => do let _ ← Buffer.edit e
  | .op o => do let _ ← o.run

def strokes (b : Buffer) (done : List Stroke) : Buffer := done.foldl (fun b s => (s.run b).state) b

def Stroke.Forward (s : Stroke) : Prop := ∀ e, s = .edit e → e.start ≤ e.stop

theorem stableChange {P : Buffer → Prop} (stable : Stable P) (c : Change) : Run.Keeps P c.run := by
  cases c with
  | insertText text => exact stableMade (stableInsertText stable text)
  | insertNewline | insertTab => exact stableMade (stableInsertText stable _)
  | deleteChar => exact stableDeleteChar stable
  | deleteNextChar => exact stableDeleteNextChar stable
  | deleteToLineEnd => exact stableDeleteToLineEnd stable
  | deleteLine moveUp => exact stableDeleteLine stable moveUp
  | deleteNextWord => exact stableDeleteNextWord stable
  | deleteWord => exact stableDeleteWord stable
  | openLineBelow => exact stableMade (stableOpenLineBelow stable)
  | openLineAbove => exact stableMade (stableOpenLineAbove stable)
  | paste => exact stablePaste stable
  | replaceRange start stop text label => exact stableMade (stableReplaceRange stable start stop text label)

theorem stableOp {P : Buffer → Prop} (stable : Stable P) (o : Op) : Run.Keeps P o.run := by
  cases o with
  | jump row col => exact stableMade (stable.leaves fun _ => rfl)
  | move m => exact stable.leaves (groundMove m)
  | change c => exact stableChange stable c
  | undo => exact stableUndo stable
  | redo => exact stableRedo stable

theorem stableStroke {P : Buffer → Prop} (stable : Stable P) {s : Stroke} (forward : s.Forward) :
    Run.Keeps P s.run := by
  cases s with
  | edit e => exact Run.keepsBind (stableEdit stable (forward e rfl)) fun _ => Run.keepsPure ()
  | op o => exact Run.keepsBind (stableOp stable o) fun _ => Run.keepsPure ()

theorem stableStrokes {P : Buffer → Prop} (stable : Stable P) {done : List Stroke}
    (forward : ∀ s ∈ done, s.Forward) {b : Buffer} (held : P b) : P (b.strokes done) := by
  induction done generalizing b with
  | nil => exact held
  | cons s rest ih =>
    have first := stableStroke stable (forward s List.mem_cons_self) b held
    exact ih (fun s' member => forward s' (List.mem_cons_of_mem s member)) first

end ModalNotes.Buffer
