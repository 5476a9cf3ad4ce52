import ModalNotes.Proofs.Buffer.History
import ModalNotes.Proofs.Buffer.Hop
import ModalNotes.Proofs.Buffer.Select

/-! The version tells of every change: where it stays the buffer stays, to the last field. An operation that
finds nothing to do says so and does nothing. -/
namespace ModalNotes.Buffer

variable {α : Type} {m : Run Buffer α}

def Told (m : Run Buffer α) : Prop :=
  ∀ b, b.Sound → m.Ends b fun _ later => later = b ∨ b.version < later.version

/- To say that nothing was done is to have done nothing. -/
def Reports (m : Run Buffer Bool) (b : Buffer) : Prop :=
  (m b).result = .ok false → (m b).state = b

theorem reportsPure (changed : Bool) (b : Buffer) : Reports (pure changed) b := fun _ => rfl

theorem reportsGet {f : Buffer → Run Buffer Bool} {b : Buffer} (rest : Reports (f b) b) :
    Reports (Run.get >>= f) b := rest

theorem reportsReads {r : Except Fault α} {f : α → Run Buffer Bool} {b : Buffer}
    (rest : ∀ a, Reports (f a) b) : Reports (Run.ofExcept r >>= f) b := by
  cases r with
  | ok a => exact rest a
  | error fault => exact fun _ => rfl

theorem reportsBind {f : α → Run Buffer Bool} {b : Buffer}
    (made : ∀ a t, ((f a) t).result = .ok true) : Reports (m >>= f) b := by
  unfold Reports
  rw [Run.bind_apply]
  rcases m b with ⟨t, trace, r⟩
  cases r with
  | error fault => exact fun failed => nomatch failed
  | ok a =>
    intro denied
    cases (made a t).symm.trans denied

theorem reportsDeleteChar (b : Buffer) : Reports deleteChar b := by
  refine reportsGet (reportsReads fun offset => ?_)
  split
  · exact reportsPure false b
  · exact reportsBind fun _ _ => rfl

theorem reportsDeleteNextChar (b : Buffer) : Reports deleteNextChar b := by
  refine reportsGet (reportsReads fun offset => ?_)
  split
  · exact reportsPure false b
  · exact reportsBind fun _ _ => rfl

theorem reportsDeleteToLineEnd (b : Buffer) : Reports deleteToLineEnd b := by
  refine reportsGet (reportsReads fun length => ?_)
  split
  · exact reportsPure false b
  · exact reportsBind fun _ _ => rfl

theorem reportsDeleteLine (moveUp : Bool) (b : Buffer) : Reports (deleteLine moveUp) b := by
  refine reportsGet (reportsReads fun line => ?_)
  split
  · exact reportsPure false b
  · exact reportsReads fun e => reportsBind fun _ _ => rfl

theorem reportsDeleteNextWord (b : Buffer) : Reports deleteNextWord b := by
  refine reportsGet (reportsReads fun line => ?_)
  split
  · exact reportsDeleteNextChar b
  · exact reportsBind fun _ _ => rfl

theorem reportsDeleteWord (b : Buffer) : Reports deleteWord b := by
  refine reportsGet ?_
  dsimp only
  split
  · exact reportsDeleteChar b
  · exact reportsReads fun line => reportsBind fun _ _ => rfl

theorem reportsPaste (b : Buffer) : Reports paste b := by
  refine reportsGet ?_
  dsimp only
  split
  · exact reportsPure false b
  split
  · exact reportsReads fun length => reportsReads fun offset => reportsBind fun _ _ => rfl
  · exact reportsBind fun _ _ => rfl

theorem reportsSearchWith (choose : Text → Text → Nat → Option Nat) (b : Buffer) :
    Reports (searchWith choose) b := by
  refine reportsGet ?_
  split
  · exact reportsPure false b
  · refine reportsReads fun offset => ?_
    split
    · exact reportsPure false b
    · exact reportsBind fun _ _ => rfl

theorem reportsHopTo (index : Int) (b : Buffer) : Reports (hopTo index) b := by
  refine reportsGet ?_
  split
  · exact reportsPure false b
  · exact reportsBind fun _ _ => rfl

theorem steadyReports {m : Run Buffer Bool} {b : Buffer} (steady : m.Ends b fun _ later => b.Steady later)
    (reports : Reports m b) : m.Ends b fun found later => b.Steady later ∧ (found = false → later = b) := by
  obtain ⟨found, result, steady⟩ := steady
  exact ⟨found, result, steady, fun lost => reports (lost ▸ result)⟩

theorem recordedGrows {b later : Buffer} {place : Cursor} (recorded : Recorded b later place) :
    b.version < later.version := by
  obtain ⟨-, r, -, -, -, works⟩ := recorded
  rw [version, version, works.document]
  exact Nat.lt_succ_self _

theorem toldRecorded {place : Buffer → Cursor}
    (recorded : ∀ b, b.Sound → m.Ends b fun _ later => Recorded b later (place b)) : Told m :=
  fun b sound => Run.endsMono (recorded b sound) fun _ _ change => .inr (recordedGrows change)

theorem toldTells {m : Run Buffer Bool} {place : Buffer → Cursor}
    (tells : ∀ b, b.Sound → m.Ends b (Tells b (place b))) (reports : ∀ b, Reports m b) : Told m := by
  intro b sound
  obtain ⟨changed, result, tells⟩ := tells b sound
  refine ⟨changed, result, ?_⟩
  cases changed with
  | true => exact .inr (recordedGrows tells)
  | false => exact .inl (reports b result)

theorem toldInsertText (text : Text) : Told (insertText text) :=
  toldRecorded fun _ sound => insertTextRecorded sound text

theorem toldOpenLineBelow : Told openLineBelow := toldRecorded fun _ sound => openLineBelowRecorded sound

theorem toldOpenLineAbove : Told openLineAbove := toldRecorded fun _ sound => openLineAboveRecorded sound

theorem toldDeleteChar : Told deleteChar :=
  toldTells (fun _ sound => deleteCharTells sound) reportsDeleteChar

theorem toldDeleteNextChar : Told deleteNextChar :=
  toldTells (fun _ sound => deleteNextCharTells sound) reportsDeleteNextChar

theorem toldDeleteToLineEnd : Told deleteToLineEnd :=
  toldTells (fun _ sound => deleteToLineEndTells sound) reportsDeleteToLineEnd

theorem toldDeleteLine (moveUp : Bool) : Told (deleteLine moveUp) :=
  toldTells (fun _ sound => deleteLineTells sound moveUp) (reportsDeleteLine moveUp)

theorem toldDeleteNextWord : Told deleteNextWord :=
  toldTells (fun _ sound => deleteNextWordTells sound) reportsDeleteNextWord

theorem toldDeleteWord : Told deleteWord :=
  toldTells (fun _ sound => deleteWordTells sound) reportsDeleteWord

theorem toldPaste : Told paste := toldTells (fun _ sound => pasteTells sound) reportsPaste

theorem toldRevert {b : Buffer} (sound : b.Sound) (history : Timeline Replacement) (e : Edit) :
    Run.Ends (do
      Run.put { b with history }
      let _ ← edit e
      pure true) b fun _ later => later = b ∨ b.version < later.version := by
  have rewound : Sound { b with history } := ⟨sound.document, sound.cursor, sound.anchors⟩
  rw [Run.endsBind, Run.endsPut, Run.endsBind]
  refine Run.endsMono (editEnds rewound e) ?_
  rintro _ later ⟨-, document⟩
  rw [Run.endsPure]
  refine .inr ?_
  rw [version, version, document]
  exact Nat.lt_succ_self _

theorem toldUndo : Told undo := by
  intro b sound
  unfold undo
  rw [Run.endsBind, Run.endsGet]
  split
  · exact Run.endsPure.mpr (.inl rfl)
  · exact toldRevert sound _ _

theorem toldRedo : Told redo := by
  intro b sound
  unfold redo
  rw [Run.endsBind, Run.endsGet]
  split
  · exact Run.endsPure.mpr (.inl rfl)
  · exact toldRevert sound _ _

theorem toldCut {b : Buffer} (sound : b.Sound) (selects : Selects b) :
    cut.Ends b fun _ later => later.seat = b.seat ∨ b.version < later.version := by
  unfold cut
  rw [Run.endsBind]
  refine Run.endsMono (selectionRangeEnds sound selects) ?_
  rintro range b ⟨rfl, selected⟩
  cases range with
  | none => exact Run.endsPure.mpr (.inl rfl)
  | some range =>
    obtain ⟨first, last⟩ := selected
    have left : cancelSelection.Ends b fun _ middle => middle.seat = b.seat :=
      ⟨(), rfl, seatCancelSelection b⟩
    dsimp only
    rw [Run.endsBind]
    refine Run.endsMono (Run.endsBoth (cancelSelectionEnds sound) left) ?_
    rintro _ middle ⟨⟨steady, -⟩, same⟩
    split
    · exact Run.endsPure.mpr (.inl same)
    · rw [← steady.document] at first last
      have recorded := replaceRangeRecorded (steady.follows sound).sound first last [] "cut".toList
      rw [Run.endsBind]
      refine Run.endsMono recorded fun removed later change => ?_
      rw [Run.endsBind, Run.endsModify, Run.endsPure]
      have grown := recordedGrows change
      rw [version, steady.document] at grown
      exact .inr grown

end ModalNotes.Buffer
