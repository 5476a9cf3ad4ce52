import ModalNotes.Buffer.Change
import ModalNotes.Proofs.Run

/-! What a change does to the text is a matter of the text, the cursor and the registers: no change reads
the history. -/
namespace ModalNotes.Buffer

variable {α β : Type}

def Blind (m : Run Buffer α) : Prop :=
  ∀ b history, ∃ history', m { b with history } =
    ⟨{ (m b).state with history := history' }, (m b).trace, (m b).result⟩

theorem blindPure (a : α) : Blind (pure a : Run Buffer α) := fun _ history => ⟨history, rfl⟩

theorem blindOfExcept (r : Except Fault α) : Blind (Run.ofExcept r) := fun _ history => ⟨history, rfl⟩

theorem blindModify {f : Buffer → Buffer}
    (same : ∀ b history, ∃ history', f { b with history } = { f b with history := history' }) :
    Blind (Run.modify f) := by
  intro b history
  obtain ⟨history', same⟩ := same b history
  exact ⟨history', by simp only [Run.modify, same]⟩

theorem blindBind {m : Run Buffer α} {f : α → Run Buffer β} (first : Blind m)
    (rest : ∀ a, Blind (f a)) : Blind (m >>= f) := by
  intro b history
  obtain ⟨history', same⟩ := first b history
  rw [Run.bind_apply, Run.bind_apply, same]
  rcases m b with ⟨c, trace, r⟩
  cases r with
  | error fault => exact ⟨history', rfl⟩
  | ok a =>
    obtain ⟨history'', same'⟩ := rest a c history'
    exact ⟨history'', by simp only [same']⟩

theorem blindGet {f : Buffer → Run Buffer β} (blind : ∀ b, Blind (f b))
    (same : ∀ b history, f { b with history } = f b) : Blind (Run.get >>= f) := by
  intro b history
  obtain ⟨history', run⟩ := blind b b history
  refine ⟨history', ?_⟩
  simp only [Run.bind_apply, Run.get, same, run]

theorem blindSpanned {m : Run Buffer α} {span : Span} (blind : Blind m) : Blind (Run.spanned span m) := by
  intro b history
  obtain ⟨history', same⟩ := blind b history
  exact ⟨history', by simp only [Run.spanned, Run.spannedWith, same]⟩

theorem blindYank (value : Register) : Blind (Run.modify (·.yank value)) :=
  blindModify fun _ history => ⟨history, rfl⟩

theorem blindApplyEdit (e : Edit) : Blind (applyEdit e) := by
  intro b history
  have text : Buffer.text { b with history } = b.text := rfl
  cases shifted : (b.anchors.shift b.document
      (b.document.replaceText (b.text.take e.start ++ e.text ++ b.text.drop e.stop))
      e.start e.stop e.text.length).2 with
  | error fault => exact ⟨history, by simp only [applyEdit, text, shifted]⟩
  | ok done => exact ⟨_, by simp only [applyEdit, text, shifted]; rfl⟩

theorem blindEdit (e : Edit) : Blind (edit e) := by
  refine blindGet (fun b => blindBind (blindSpanned (blindApplyEdit e)) fun removed => ?_) fun _ _ => rfl
  split
  · exact blindBind (blindYank _) fun _ => blindPure _
  · exact blindPure _

theorem blindReplaceRange (start stop : Point) (text label : Text) :
    Blind (replaceRange start stop text label) :=
  blindGet (fun _ => blindBind (blindOfExcept _) fun _ => blindBind (blindOfExcept _) fun _ =>
    blindBind (blindOfExcept _) fun _ => blindBind (blindOfExcept _) fun _ => blindEdit _) fun _ _ => rfl

theorem blindInsertText (text : Text) : Blind (insertText text) :=
  blindGet (fun _ => blindBind (blindOfExcept _) fun _ => blindBind (blindEdit _) fun _ => blindPure _)
    fun _ _ => rfl

theorem blindDeleteChar : Blind deleteChar := by
  refine blindGet (fun b => blindBind (blindOfExcept _) fun offset => ?_) fun _ _ => rfl
  split
  · exact blindPure _
  · exact blindBind (blindEdit _) fun _ => blindPure _

theorem blindDeleteNextChar : Blind deleteNextChar := by
  refine blindGet (fun b => blindBind (blindOfExcept _) fun offset => ?_) fun _ _ => rfl
  split
  · exact blindPure _
  · exact blindBind (blindEdit _) fun _ => blindPure _

theorem blindDeleteToLineEnd : Blind deleteToLineEnd := by
  refine blindGet (fun b => blindBind (blindOfExcept _) fun length => ?_) fun _ _ => rfl
  split
  · exact blindPure _
  · exact blindBind (blindReplaceRange _ _ _ _) fun _ => blindBind (blindYank _) fun _ => blindPure _

theorem blindDeleteLine (moveUp : Bool) : Blind (deleteLine moveUp) := by
  refine blindGet (fun b => blindBind (blindOfExcept _) fun line => ?_) fun _ _ => rfl
  split
  · exact blindPure _
  · refine blindBind (blindOfExcept _) fun e => blindBind (blindEdit e) fun _ =>
      blindBind (blindModify fun b history => ⟨history, ?_⟩) fun _ => blindPure _
    dsimp only [yank]
    split <;> rfl

theorem blindDeleteNextWord : Blind deleteNextWord := by
  refine blindGet (fun b => blindBind (blindOfExcept _) fun line => ?_) fun _ _ => rfl
  split
  · exact blindDeleteNextChar
  · exact blindBind (blindReplaceRange _ _ _ _) fun _ =>
      blindBind (blindModify fun _ history => ⟨history, rfl⟩) fun _ => blindPure _

theorem blindDeleteWord : Blind deleteWord := by
  refine blindGet (fun b => ?_) fun _ _ => rfl
  dsimp only
  split
  · exact blindDeleteChar
  · exact blindBind (blindOfExcept _) fun _ => blindBind (blindReplaceRange _ _ _ _) fun _ =>
      blindBind (blindYank _) fun _ => blindPure _

theorem blindOpenLineAbove : Blind openLineAbove :=
  blindGet (fun _ => blindBind (blindOfExcept _) fun _ => blindBind (blindEdit _) fun _ => blindPure _)
    fun _ _ => rfl

theorem blindOpenLineBelow : Blind openLineBelow := by
  intro b history
  cases length : b.document.lineLength b.cursor.row with
  | error fault =>
    refine ⟨history, ?_⟩
    simp only [openLineBelow, Run.bind_apply, Run.get, Run.ofExcept, length]
  | ok length' =>
    obtain ⟨history', same⟩ := blindInsertText ['\n'] { b with cursor := ⟨b.cursor.row, length'⟩ } history
    refine ⟨history', ?_⟩
    simp only [openLineBelow, Run.bind_apply, Run.get, Run.ofExcept, length, Run.put, insertNewline, same]

theorem blindPaste : Blind paste := by
  refine blindGet (fun b => ?_) fun _ _ => rfl
  dsimp only
  split
  · exact blindPure _
  split
  · exact blindBind (blindOfExcept _) fun _ => blindBind (blindOfExcept _) fun _ =>
      blindBind (blindEdit _) fun _ => blindPure _
  · exact blindBind (blindInsertText _) fun _ => blindPure _

end ModalNotes.Buffer
