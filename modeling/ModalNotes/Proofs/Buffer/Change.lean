import ModalNotes.Buffer.Change
import ModalNotes.Proofs.Buffer.Basic
import ModalNotes.Proofs.Motion

/-! No change of the text fails on a sound buffer, wherever the cursor is, and the buffer stays sound. -/
namespace ModalNotes.Buffer

theorem safeInsertText (text : Text) : Safe (insertText text) := by
  intro b sound
  unfold insertText
  simp only [Run.endsBind, Run.endsGet, Run.endsOfExcept, Run.endsPure]
  exact ⟨_, offsetCursor sound, safeEdit _ b sound⟩

theorem safeInsertNewline : Safe insertNewline := safeInsertText ['\n']

theorem safeInsertTab : Safe insertTab := safeInsertText tabText

theorem safeDeleteChar : Safe deleteChar := by
  intro b sound
  unfold deleteChar
  simp only [Run.endsBind, Run.endsGet, Run.endsOfExcept]
  refine ⟨_, offsetCursor sound, ?_⟩
  split
  · exact safePure false b sound
  · exact safeBind (safeEdit _) (fun _ => safePure true) b sound

theorem safeDeleteNextChar : Safe deleteNextChar := by
  intro b sound
  unfold deleteNextChar
  simp only [Run.endsBind, Run.endsGet, Run.endsOfExcept]
  refine ⟨_, offsetCursor sound, ?_⟩
  split
  · exact safePure false b sound
  · exact safeBind (safeEdit _) (fun _ => safePure true) b sound

theorem holdsWidth {b : Buffer} (sound : b.Sound) :
    b.document.Holds ⟨b.cursor.row, b.document.width b.cursor.row⟩ :=
  Document.holdsIn sound.cursor (Nat.le_refl _)

theorem removeRange {b : Buffer} (sound : b.Sound) {start stop : Cursor}
    (first : b.document.Holds start) (last : b.document.Holds stop) (label : Text) :
    Run.Ends (do
      let removed ← replaceRange start.toPoint stop.toPoint [] label
      Run.modify (·.yank (characterwise removed))
      pure true) b fun _ later => Follows b later ∧ later.selectionStart = b.selectionStart := by
  rw [Run.endsBind]
  refine Run.endsMono (replaceRangeEnds sound first last [] label) ?_
  intro removed later post
  obtain ⟨⟨follows, selection⟩, -⟩ := post
  refine Run.endsMono
    (safeBind (safeYank (characterwise removed)) (fun _ => safePure true) later follows.sound) ?_
  intro _ last' post
  obtain ⟨follows', selection'⟩ := post
  exact ⟨follows.trans follows', selection'.trans selection⟩

theorem safeDeleteToLineEnd : Safe deleteToLineEnd := by
  intro b sound
  unfold deleteToLineEnd
  rw [Run.endsBind, Run.endsGet, Run.endsBind, Run.endsOfExcept]
  refine ⟨_, Document.lineLengthOk sound.cursor.1, ?_⟩
  split
  · exact safePure false b sound
  · exact removeRange sound sound.cursor (holdsWidth sound) _

theorem lineDeletionOk {d : Document} {row : Nat} {line : Text} (inside : row < d.lineCount) :
    ∃ e, lineDeletion d row line = .ok e := by
  unfold lineDeletion
  split
  · exact ⟨_, rfl⟩
  have startOk : ∀ c : Cursor, c.row ≤ d.lineCount → d.offset c = .ok (d.start c.row + c.col) :=
    fun c h => if_pos h
  split
  · simp only [startOk ⟨row, 0⟩ (Nat.le_of_lt inside), startOk ⟨row + 1, 0⟩ inside, bind, Except.bind]
    exact ⟨_, rfl⟩
  · have above : row - 1 < d.lineCount := Nat.lt_of_le_of_lt (Nat.sub_le _ _) inside
    simp only [Document.lineLengthOk above, startOk ⟨row - 1, _⟩ (Nat.le_of_lt above),
      startOk ⟨row, _⟩ (Nat.le_of_lt inside), bind, Except.bind]
    exact ⟨_, rfl⟩

theorem safeClimb (row : Nat) (line : Text) (moveUp : Bool) : Safe (Run.modify fun b =>
    let b := b.yank (Register.linewise line)
    if moveUp && b.cursor.row == row && 0 < row then { b with cursor := ⟨row - 1, 0⟩ } else b) := by
  intro b sound
  rw [Run.endsModify]
  have yanked := (steadyYank sound (Register.linewise line)).follows sound
  dsimp only
  split
  · rename_i climbs
    simp only [Bool.and_eq_true, beq_iff_eq, decide_eq_true_eq] at climbs
    obtain ⟨⟨-, same⟩, -⟩ := climbs
    have low : b.cursor.row = row := same
    have inside := sound.cursor.1
    have climbed : b.document.Holds ⟨row - 1, 0⟩ := ⟨by simp only; omega, Nat.zero_le _⟩
    exact ⟨Steady.follows ⟨rfl, climbed, rfl, rfl⟩ sound, rfl⟩
  · exact ⟨yanked, rfl⟩

theorem safeDeleteLine (moveUp : Bool) : Safe (deleteLine moveUp) := by
  intro b sound
  obtain ⟨line, ok, -, -⟩ := Document.lineOk sound.cursor.1
  have taken : ∃ e, lineDeletion b.document b.cursor.row line = .ok e := lineDeletionOk sound.cursor.1
  obtain ⟨e, deletion⟩ := taken
  unfold deleteLine
  rw [Run.endsBind, Run.endsGet, Run.endsBind, Run.endsOfExcept]
  refine ⟨line, ok, ?_⟩
  split
  · exact safePure false b sound
  · rw [Run.endsBind, Run.endsOfExcept]
    refine ⟨e, deletion, ?_⟩
    exact safeBind (safeEdit e)
      (fun _ => safeBind (safeClimb b.cursor.row line moveUp) fun _ => safePure true) b sound

theorem leSameRow {row col col' : Nat} (h : col ≤ col') :
    (⟨row, col⟩ : Cursor).le ⟨row, col'⟩ = true := by
  simp [Cursor.le, h]

theorem safeDeleteNextWord : Safe deleteNextWord := by
  intro b sound
  obtain ⟨line, ok, -, size⟩ := Document.lineOk sound.cursor.1
  unfold deleteNextWord
  rw [Run.endsBind, Run.endsGet, Run.endsBind, Run.endsOfExcept]
  refine ⟨line, ok, ?_⟩
  split
  · exact safeDeleteNextChar b sound
  · rename_i short
    have last : b.document.Holds ⟨b.cursor.row, line.wordEnd b.cursor.col⟩ :=
      Document.holdsIn sound.cursor (size ▸ Text.wordEndLe (by omega))
    rw [Run.endsBind]
    refine Run.endsMono (replaceRangeEnds sound sound.cursor last [] _) ?_
    intro removed later post
    obtain ⟨⟨follows, selection⟩, e, document, start⟩ := post
    rw [Run.endsBind, Run.endsModify, Run.endsPure]
    -- The text in front of the cursor is as before, so the cursor can go back to where it was.
    have before : b.document.start b.cursor.row + b.cursor.col ≤ e.start :=
      Nat.le_of_eq (start (leSameRow (Text.leWordEnd line b.cursor.col))).symm
    have back : later.document.Holds b.cursor := by
      rw [document]
      exact Document.holdsReplaced sound.document sound.cursor before _
    have returned : Steady later ({ later with cursor := b.cursor }.yank (characterwise removed)) :=
      ⟨rfl, back, rfl, rfl⟩
    exact ⟨follows.trans (returned.follows follows.sound), selection⟩

theorem safeDeleteWord : Safe deleteWord := by
  intro b sound
  obtain ⟨line, ok, -, size⟩ := Document.lineOk sound.cursor.1
  unfold deleteWord
  rw [Run.endsBind, Run.endsGet]
  dsimp only
  split
  · exact safeDeleteChar b sound
  · rw [Run.endsBind, Run.endsOfExcept]
    have first : b.document.Holds ⟨b.cursor.row, line.wordBegin b.cursor.col⟩ :=
      Document.holdsIn sound.cursor (size ▸ Text.wordBeginLe line _)
    exact ⟨line, ok, removeRange sound first sound.cursor _⟩

theorem safeOpenLineBelow : Safe openLineBelow := by
  intro b sound
  unfold openLineBelow
  rw [Run.endsBind, Run.endsGet, Run.endsBind, Run.endsOfExcept]
  refine ⟨_, Document.lineLengthOk sound.cursor.1, ?_⟩
  rw [Run.endsBind, Run.endsPut]
  have moved : Steady b { b with cursor := ⟨b.cursor.row, b.document.width b.cursor.row⟩ } :=
    ⟨rfl, holdsWidth sound, rfl, rfl⟩
  have follows := moved.follows sound
  refine Run.endsMono (safeInsertNewline _ follows.sound) ?_
  intro _ later post
  obtain ⟨follows', selection⟩ := post
  exact ⟨follows.trans follows', selection⟩

theorem safeOpenLineAbove : Safe openLineAbove := by
  intro b sound
  have head : b.document.Holds ⟨b.cursor.row, 0⟩ := Document.holdsIn sound.cursor (Nat.zero_le _)
  unfold openLineAbove
  rw [Run.endsBind, Run.endsGet, Run.endsBind, Run.endsOfExcept]
  exact ⟨_, Document.offsetOk head, safeBind (safeEdit _) (fun _ => safePure ()) b sound⟩

theorem safePaste : Safe paste := by
  intro b sound
  unfold paste
  rw [Run.endsBind, Run.endsGet]
  dsimp only
  split
  · exact safePure false b sound
  split
  · rw [Run.endsBind, Run.endsOfExcept]
    refine ⟨_, Document.lineLengthOk sound.cursor.1, ?_⟩
    rw [Run.endsBind, Run.endsOfExcept]
    refine ⟨_, Document.offsetOk (holdsWidth sound), ?_⟩
    exact safeBind (safeEdit _) (fun _ => safePure true) b sound
  · exact safeBind (safeInsertText _) (fun _ => safePure true) b sound

theorem safeRevert {b : Buffer} (sound : b.Sound) (history : Timeline Replacement) (e : Edit) :
    Run.Ends (do
      Run.put { b with history }
      let _ ← edit e
      pure true) b fun _ later => Follows b later ∧ later.selectionStart = b.selectionStart := by
  rw [Run.endsBind, Run.endsPut]
  have rewound : Follows b { b with history } :=
    Steady.follows ⟨rfl, sound.cursor, rfl, rfl⟩ sound
  refine Run.endsMono (safeBind (safeEdit e) (fun _ => safePure true) _ rewound.sound) ?_
  intro _ later post
  obtain ⟨follows, selection⟩ := post
  exact ⟨rewound.trans follows, selection⟩

theorem safeUndo : Safe undo := by
  intro b sound
  unfold undo
  rw [Run.endsBind, Run.endsGet]
  split
  · exact safePure false b sound
  · exact safeRevert sound _ _

theorem safeRedo : Safe redo := by
  intro b sound
  unfold redo
  rw [Run.endsBind, Run.endsGet]
  split
  · exact safePure false b sound
  · exact safeRevert sound _ _

end ModalNotes.Buffer
