import ModalNotes.Proofs.Buffer.History
import ModalNotes.Proofs.Buffer.Hop
import ModalNotes.Text.Printable

/-! What no operation of a buffer breaks. A property of the text and its anchors that every edit keeps is
kept by every operation, undo and redo included. Only drawing an anchor changes the anchors otherwise. -/
namespace ModalNotes.Buffer

open Run (Leaves keepsBind keptReads keepsPure keepsLeaves leavesBind leavesGet leavesPure leavesPut
  leavesReads leavesLog)

/- What an operation leaves that neither edits nor draws. -/
def ground (b : Buffer) : Document × AnchorTable × Option Int := (b.document, b.anchors, b.newAnchor)

/- What an operation leaves that only goes from place to place. -/
def matter (b : Buffer) : (Document × AnchorTable × Option Int) × RegisterBank × Timeline Replacement :=
  (b.ground, b.registers, b.history)

structure Stable (P : Buffer → Prop) : Prop where
  ground : ∀ b c, c.ground = b.ground → P b → P c
  edit : ∀ b e, e.start ≤ e.stop → P b → P (edit e b).state

def Waives (P : Buffer → Prop) : Prop := ∀ b, b.newAnchor ≠ none → P b

section
variable {b : Buffer}

theorem matterSearchWith (choose : Text → Text → Nat → Option Nat) (b : Buffer) :
    Leaves matter (searchWith choose) b := by
  refine leavesGet ?_
  split
  · exact leavesPure false b
  · refine leavesReads fun offset => ?_
    split
    · exact leavesPure false b
    · exact leavesBind (leavesPut rfl) fun _ t => leavesPure true t

theorem matterMove (m : Motion) (b : Buffer) : Leaves matter (move m) b :=
  leavesGet (leavesReads fun _ => leavesBind (leavesPut rfl) fun _ t => leavesPure _ t)

theorem groundMove (m : Motion) (b : Buffer) : Leaves ground (move m) b := congrArg Prod.fst (matterMove m b)

theorem matterSelectionRange (b : Buffer) : Leaves matter selectionRange b := by
  refine leavesGet ?_
  split
  · exact leavesPure none b
  · exact leavesReads fun _ => leavesPure _ b

theorem groundSelectionRange (b : Buffer) : Leaves ground selectionRange b :=
  congrArg Prod.fst (matterSelectionRange b)

theorem groundCopy (b : Buffer) : Leaves ground copy b := by
  refine leavesBind (groundSelectionRange b) fun range t => ?_
  split
  · exact leavesPure false t
  · exact leavesGet (leavesReads fun _ => leavesReads fun _ => leavesBind (leavesPut rfl) fun _ u =>
      leavesBind (m := cancelSelection) rfl fun _ v => leavesPure true v)

theorem matterSetHopPattern (key : Text) (b : Buffer) : Leaves matter (setHopPattern key) b :=
  leavesGet (leavesBind (leavesPut rfl) fun _ t => leavesBind (leavesLog _ t) fun _ u => leavesPure _ u)

theorem matterHopTo (index : Int) (b : Buffer) : Leaves matter (hopTo index) b := by
  refine leavesGet ?_
  split
  · exact leavesPure false b
  · exact leavesBind (leavesPut rfl) fun _ t => leavesPure true t

end

section
variable {P : Buffer → Prop} {α : Type} {m : Run Buffer α}

theorem Stable.leaves (stable : Stable P) (h : ∀ b, Leaves Buffer.ground m b) : Run.Keeps P m :=
  keepsLeaves h stable.ground

theorem Stable.modify (stable : Stable P) {f : Buffer → Buffer} (same : ∀ b, (f b).ground = b.ground) :
    Run.Keeps P (Run.modify f) := stable.leaves same

theorem stableEdit (stable : Stable P) {e : Edit} (ordered : e.start ≤ e.stop) : Run.Keeps P (edit e) :=
  fun b held => stable.edit b e ordered held

theorem drawnApplyEdit (e : Edit) (b : Buffer) : Leaves newAnchor (applyEdit e) b := by
  unfold Run.Leaves applyEdit
  dsimp only
  split <;> rfl

theorem drawnEdit (e : Edit) (b : Buffer) : Leaves newAnchor (edit e) b := by
  refine leavesGet (leavesBind (Run.leavesSpanned (drawnApplyEdit e b)) fun removed t => ?_)
  split
  · exact leavesBind rfl fun _ u => leavesPure removed u
  · exact leavesPure removed t

def Undrawn (P : Buffer → Prop) (b : Buffer) : Prop := b.newAnchor = none → P b

theorem waivesUndrawn : Waives (Undrawn P) := fun _ drawn none => absurd none drawn

theorem stableUndrawn (stable : Stable P) : Stable (Undrawn P) where
  ground b c same held none := by
    have drawn : c.newAnchor = b.newAnchor := congrArg (fun g => g.2.2) same
    exact stable.ground b c same (held (drawn.symm.trans none))
  edit b e le held none := stable.edit b e le (held ((drawnEdit e b).symm.trans none))

theorem stableMade (kept : Run.Keeps P m) : Run.Keeps P (do let _ ← m; pure true) :=
  keepsBind kept fun _ => keepsPure true

theorem stableThen (stable : Stable P) (kept : Run.Keeps P m) {f : α → Buffer → Buffer}
    (same : ∀ a b, (f a b).ground = b.ground) :
    Run.Keeps P (do let a ← m; Run.modify (f a); pure true) :=
  keepsBind kept fun a => keepsBind (stable.modify (same a)) fun _ => keepsPure true

theorem stableReplaceRange (stable : Stable P) (start stop : Point) (text label : Text) :
    Run.Keeps P (replaceRange start stop text label) := by
  intro b held
  refine keptReads held fun c ok => keptReads held fun c' ok' => keptReads held fun first isFirst =>
    keptReads held fun last isLast => stable.edit b _ ?_ held
  obtain ⟨holds, -⟩ := Document.ensureHolds ok
  obtain ⟨holds', -⟩ := Document.ensureHolds ok'
  obtain ⟨inside, inside', le⟩ := betweenOrdered holds holds'
  cases (Document.offsetOk inside).symm.trans isFirst
  cases (Document.offsetOk inside').symm.trans isLast
  exact Document.offsetMono inside le

theorem stableRemove (stable : Stable P) (start stop : Point) (label : Text) : Run.Keeps P (do
    let removed ← replaceRange start stop [] label
    Run.modify (·.yank (characterwise removed))
    pure true) :=
  stableThen stable (f := fun removed b => b.yank (characterwise removed))
    (stableReplaceRange stable start stop [] label) fun _ _ => rfl

theorem stableInsertText (stable : Stable P) (text : Text) : Run.Keeps P (insertText text) := fun b held =>
  keptReads held fun offset _ =>
    keepsBind (stableEdit stable (Nat.le_refl offset)) (fun _ => keepsPure ()) b held

theorem stableDeleteChar (stable : Stable P) : Run.Keeps P deleteChar := by
  refine fun b held => keptReads held fun offset _ => ?_
  split
  · exact held
  · exact stableMade (stableEdit stable (Nat.sub_le offset 1)) b held

theorem stableDeleteNextChar (stable : Stable P) : Run.Keeps P deleteNextChar := by
  refine fun b held => keptReads held fun offset _ => ?_
  split
  · exact held
  · exact stableMade (stableEdit stable (Nat.le_succ offset)) b held

theorem stableDeleteToLineEnd (stable : Stable P) : Run.Keeps P deleteToLineEnd := by
  refine fun b held => keptReads held fun length _ => ?_
  split
  · exact held
  · exact stableRemove stable _ _ _ b held

theorem stableDeleteLine (stable : Stable P) (moveUp : Bool) : Run.Keeps P (deleteLine moveUp) := by
  refine fun b held => keptReads held fun line found => ?_
  split
  · exact held
  · refine keptReads held fun e deletion => stableThen stable (stableEdit stable ?_) (fun _ t => ?_) b held
    · obtain ⟨inside, size⟩ := Document.lineFound found
      exact (lineDeletionCuts inside size deletion).2.1
    · dsimp only
      split <;> rfl

theorem stableDeleteNextWord (stable : Stable P) : Run.Keeps P deleteNextWord := by
  refine fun b held => keptReads held fun line _ => ?_
  split
  · exact stableDeleteNextChar stable b held
  · exact stableThen stable (f := fun removed t => { t with cursor := b.cursor }.yank (characterwise removed))
      (stableReplaceRange stable _ _ _ _) (fun _ _ => rfl) b held

theorem stableDeleteWord (stable : Stable P) : Run.Keeps P deleteWord := by
  refine Run.keepsGet fun b held => ?_
  dsimp only
  split
  · exact stableDeleteChar stable b held
  · exact keptReads held fun line _ => stableRemove stable _ _ _ b held

theorem stableOpenLineBelow (stable : Stable P) : Run.Keeps P openLineBelow := fun b held =>
  keptReads held fun _ _ =>
    Run.keptBind (stable.ground b _ rfl held) fun _ => stableInsertText stable ['\n']

theorem stableOpenLineAbove (stable : Stable P) : Run.Keeps P openLineAbove := fun b held =>
  keptReads held fun offset _ =>
    keepsBind (stableEdit stable (Nat.le_refl offset)) (fun _ => keepsPure ()) b held

theorem stablePaste (stable : Stable P) : Run.Keeps P paste := by
  refine Run.keepsGet fun b held => ?_
  dsimp only
  split
  · exact held
  split
  · exact keptReads held fun length _ => keptReads held fun offset _ =>
      stableMade (stableEdit stable (Nat.le_refl offset)) b held
  · exact stableMade (stableInsertText stable _) b held

theorem stableUndo (stable : Stable P) : Run.Keeps P undo := by
  refine Run.keepsGet fun b held => ?_
  split
  · exact held
  · exact Run.keptBind (stable.ground b _ rfl held) fun _ =>
      stableMade (stableEdit stable (Nat.le_add_right _ _))

theorem stableRedo (stable : Stable P) : Run.Keeps P redo := by
  refine Run.keepsGet fun b held => ?_
  split
  · exact held
  · exact Run.keptBind (stable.ground b _ rfl held) fun _ =>
      stableMade (stableEdit stable (Nat.le_add_right _ _))

theorem stableCut (stable : Stable P) : Run.Keeps P cut := by
  refine keepsBind (stable.leaves groundSelectionRange) fun range => ?_
  split
  · exact keepsPure false
  · refine keepsBind (stable.leaves fun _ => rfl) fun _ => ?_
    split
    · exact keepsPure false
    · exact stableRemove stable _ _ _

theorem stableAnchorSelection (stable : Stable P) (waives : Waives P) : Run.Keeps P anchorSelection := by
  refine keepsBind (stable.leaves groundSelectionRange) fun range =>
    keepsBind (stable.leaves fun _ => rfl) fun _ => ?_
  split
  · exact keepsPure none
  · rename_i range
    have draws : ∀ endCol : Nat, Run.Keeps P (do
        if endCol ≤ range.start.col then pure none
        else do
          let id ← addAnchor range.start.row range.start.col endCol none
          Run.modify fun b => { b with newAnchor := some id }
          Run.log (Entry.event Level.info Logger.root "buffer.anchor".toList [
            ("anchor_id".toList, .int id), ("row".toList, .nat range.start.row),
            ("cols".toList, .tuple [.nat range.start.col, .nat endCol])])
          pure (some id)) := by
      intro endCol
      split
      · exact keepsPure none
      intro b held
      cases added : b.anchors.add range.start.row range.start.col endCol none with
      | error fault =>
        simp only [addAnchor, Run.bind_apply, Run.get, Run.ofExcept, added]
        exact held
      | ok r =>
        simp only [addAnchor, Run.bind_apply, Run.get, Run.ofExcept, added]
        exact waives _ (by simp [Run.modify, Run.log, Run.emit, Run.put, Run.pure_apply])
    refine Run.keepsGet fun b held => ?_
    dsimp only
    split
    · exact draws _ b held
    · exact keptReads held fun length _ => draws length b held

end

def Insertable (text : Text) : Prop :=
  text = ['\n'] ∨ text = tabText ∨ ∃ c, text = [c] ∧ Text.isPrintable c = true

structure Lasting (P : Buffer → Prop) : Prop where
  matter : ∀ b c, c.matter = b.matter → P b → P c
  insertText : ∀ text, Insertable text → Run.Keeps P (insertText text)
  deleteChar : Run.Keeps P deleteChar
  deleteNextChar : Run.Keeps P deleteNextChar
  deleteToLineEnd : Run.Keeps P deleteToLineEnd
  deleteLine : ∀ moveUp, Run.Keeps P (deleteLine moveUp)
  deleteNextWord : Run.Keeps P deleteNextWord
  deleteWord : Run.Keeps P deleteWord
  openLineBelow : Run.Keeps P openLineBelow
  openLineAbove : Run.Keeps P openLineAbove
  paste : Run.Keeps P paste
  undo : Run.Keeps P undo
  redo : Run.Keeps P redo
  copy : Run.Keeps P copy
  cut : Run.Keeps P cut
  anchorSelection : Run.Keeps P anchorSelection

theorem Lasting.aside {P : Buffer → Prop} {α : Type} {m : Run Buffer α} (lasting : Lasting P)
    (h : ∀ b, Leaves Buffer.matter m b) : Run.Keeps P m := keepsLeaves h lasting.matter

theorem stableLasting {P : Buffer → Prop} (stable : Stable P) (waives : Waives P) : Lasting P where
  matter b c same := stable.ground b c (congrArg Prod.fst same)
  insertText text _ := stableInsertText stable text
  deleteChar := stableDeleteChar stable
  deleteNextChar := stableDeleteNextChar stable
  deleteToLineEnd := stableDeleteToLineEnd stable
  deleteLine := stableDeleteLine stable
  deleteNextWord := stableDeleteNextWord stable
  deleteWord := stableDeleteWord stable
  openLineBelow := stableOpenLineBelow stable
  openLineAbove := stableOpenLineAbove stable
  paste := stablePaste stable
  undo := stableUndo stable
  redo := stableRedo stable
  copy := stable.leaves groundCopy
  cut := stableCut stable
  anchorSelection := stableAnchorSelection stable waives

end ModalNotes.Buffer
