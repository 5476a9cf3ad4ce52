import ModalNotes.Proofs.Buffer.Stable
import ModalNotes.Proofs.Editor.Modal

/-! What no key of an editor breaks: every action, every command and every change of the mode works on the
buffer through its operations, so what they keep is kept by the key, also by one that fails. -/
namespace ModalNotes.Editor

open Buffer (Lasting)
open Run (keepsBind keptReads keepsPure keepsTimes)

def Within (P : Buffer → Prop) (e : Editor) : Prop := P e.buffer

variable {P : Buffer → Prop} {α : Type}

theorem lastsBuffer {m : Run Buffer α} (kept : Run.Keeps P m) : Run.Keeps (Within P) (onBuffer m) :=
  fun e held => kept e.buffer held

theorem lastsAside {m : Run Editor α} (same : ∀ e, (m e).state.buffer = e.buffer) :
    Run.Keeps (Within P) m := fun e held => by
  unfold Within
  rw [same e]
  exact held

theorem lastsRecordColumn : Run.Keeps (Within P) recordColumn := lastsAside fun _ => rfl

theorem lastsResetPending : Run.Keeps (Within P) resetPending := lastsAside fun _ => rfl

theorem lastsLog (entry : Entry) : Run.Keeps (Within P) (Run.log entry) := lastsAside fun _ => rfl

theorem lastsJump (lasting : Lasting P) (row col : Int) :
    Run.Keeps (Within P) (onBuffer (Buffer.jump row col)) :=
  lastsBuffer (lasting.aside fun _ => rfl)

theorem lastsRepeated (count : Int) {m : Run Editor Unit} (step : Run.Keeps (Within P) m) :
    Run.Keeps (Within P) (repeated count m) := by
  refine keepsBind (keepsTimes step count.toNat) fun _ => ?_
  split
  · exact keepsBind (lastsLog _) fun _ => keepsPure count
  · exact keepsPure count

theorem lastsOnce (lasting : Lasting P) (m : Motion) : Run.Keeps (Within P) (moveOnce m) :=
  keepsBind (lastsBuffer (lasting.aside (Buffer.matterMove m))) fun _ => keepsPure ()

theorem lastsTo (lasting : Lasting P) (m : Motion) : Run.Keeps (Within P) (moveTo m) :=
  keepsBind (lastsOnce lasting m) fun _ => lastsRecordColumn

theorem lastsMove (lasting : Lasting P) (m : Motion) (count : Int) : Run.Keeps (Within P) (move m count) := by
  have steps := lastsRepeated count (lastsOnce lasting m)
  have restored : Run.Keeps (Within P) (do
      let count ← repeated count (moveOnce m)
      restoreColumn
      pure count) := keepsBind steps fun _ => keepsBind (fun e held => lastsJump lasting _ _ e held) fun _ =>
    keepsPure _
  unfold move
  split
  · refine Run.keepsGet fun e held => ?_
    dsimp only
    split
    · exact keepsBind lastsRecordColumn (fun _ => restored) e held
    · exact restored e held
  · exact keepsBind steps fun _ => keepsBind lastsRecordColumn fun _ => keepsPure _

theorem lastsSearch (lasting : Lasting P) (choose : Text → Text → Nat → Option Nat) (message : String) :
    Run.Keeps (Within P) (searchStep (Buffer.searchWith choose) message) := by
  refine keepsBind (lastsBuffer (lasting.aside (Buffer.matterSearchWith choose))) fun moved => ?_
  dsimp only
  split
  · exact keepsBind lastsRecordColumn fun _ => keepsPure _
  · exact keepsPure _

theorem lastsSelectLine (lasting : Lasting P) : Run.Keeps (Within P) selectLine := by
  refine Run.keepsGet fun e held => ?_
  refine Run.keptBind (lastsJump lasting _ _ e held) fun _ => ?_
  refine keepsBind (lastsBuffer (lasting.aside fun _ => rfl)) fun _ => fun e held => ?_
  exact keptReads held fun _ _ => lastsJump lasting _ _ e held

theorem lastsPerform (lasting : Lasting P) (action : Action) : Run.Keeps (Within P) (perform action) := by
  cases action with
  | nothing | noop | enterInsert | exitToNormal | enterVisual => exact keepsPure _
  | append | appendLineEnd | insertLineHead | lineHead | lineEnd =>
    exact keepsBind (lastsTo lasting _) fun _ => keepsPure _
  | openBelow => exact keepsBind (lastsBuffer lasting.openLineBelow) fun _ => keepsPure _
  | openAbove => exact keepsBind (lastsBuffer lasting.openLineAbove) fun _ => keepsPure _
  | enterVisualLine => exact keepsBind (lastsSelectLine lasting) fun _ => keepsPure _
  | move m => exact fun e held => keepsBind (lastsMove lasting m _) (fun _ => keepsPure _) e held
  | bottom =>
    exact fun e held => keepsBind (lastsJump lasting _ _)
      (fun _ => keepsBind lastsRecordColumn fun _ => keepsPure _) e held
  | paste => exact keepsBind (lastsBuffer lasting.paste) fun _ => keepsPure _
  | undo => exact keepsBind (lastsBuffer lasting.undo) fun _ => keepsPure _
  | redo => exact keepsBind (lastsBuffer lasting.redo) fun _ => keepsPure _
  | deleteNextChar =>
    have step : Run.Keeps (Within P) (do let _ ← onBuffer Buffer.deleteNextChar) :=
      keepsBind (lastsBuffer lasting.deleteNextChar) fun _ => keepsPure ()
    exact fun e held => keepsBind (lastsRepeated _ step) (fun _ => keepsPure _) e held
  | deleteToLineEnd | changeToLineEnd =>
    exact keepsBind (lastsBuffer lasting.deleteToLineEnd) fun _ => keepsPure _
  | searchNext | searchPrevious => exact lastsSearch lasting _ _
  | arm command opener => exact keepsBind (lastsAside fun _ => rfl) fun _ => keepsPure _
  | copy => exact keepsBind (lastsBuffer lasting.copy) fun _ => keepsPure _
  | cut => exact keepsBind (lastsBuffer lasting.cut) fun _ => keepsPure _
  | align alignment => exact keepsBind (lastsBuffer (lasting.aside fun _ => rfl)) fun _ => keepsPure _
  | link =>
    refine keepsBind (lastsBuffer lasting.anchorSelection) fun id => ?_
    cases id <;> exact keepsPure _
  | newline => exact keepsBind (lastsBuffer (lasting.insertText _ (.inl rfl))) fun _ => keepsPure _
  | tab => exact keepsBind (lastsBuffer (lasting.insertText _ (.inr (.inl rfl)))) fun _ => keepsPure _
  | backspace => exact keepsBind (lastsBuffer lasting.deleteChar) fun _ => keepsPure _
  | deleteForward => exact keepsBind (lastsBuffer lasting.deleteNextChar) fun _ => keepsPure _
  | arrow m => exact keepsBind (lastsMove lasting m 1) fun _ => keepsPure _

theorem lastsAbandon (token : Text) : Run.Keeps (Within P) (abandon token) :=
  fun e held => keepsBind (lastsLog _) (fun _ => keepsBind lastsResetPending fun _ => keepsPure _) e held

theorem lastsFinish (message : Text) : Run.Keeps (Within P) (finish message) :=
  keepsBind lastsResetPending fun _ => keepsPure _

theorem lastsPushDigit (token : Text) : Run.Keeps (Within P) (pushDigit token) := by
  unfold pushDigit
  split
  · split
    · exact lastsAside fun _ => rfl
    · exact fun _ held => held
  · exact fun _ held => held

theorem lastsIgnoring {m : Run Buffer Bool} (kept : Run.Keeps P m) :
    Run.Keeps (Within P) (ignoringResult m) :=
  keepsBind (lastsBuffer kept) fun _ => keepsPure ()

theorem lastsCharwise (lasting : Lasting P) : Charwise (Run.Keeps (Within P)) where
  char := lastsIgnoring lasting.deleteChar
  nextChar := lastsIgnoring lasting.deleteNextChar
  nextWord := lastsIgnoring lasting.deleteNextWord
  word := lastsIgnoring lasting.deleteWord

theorem lastsDeleteDown (lasting : Lasting P) (startRow : Nat) :
    Run.Keeps (Within P) (deleteDown startRow) := by
  refine Run.keepsGet fun e held => ?_
  split
  · exact lastsIgnoring (lasting.deleteLine false) e held
  · exact held

theorem lastsCompleteRepeated (opener : Char) {step : Option (Run Editor Unit)} (token : Text)
    (kept : ∀ s, step = some s → Run.Keeps (Within P) s) :
    Run.Keeps (Within P) (completeRepeated opener step token) := by
  cases step with
  | none => exact lastsAbandon token
  | some step =>
    exact fun e held => keepsBind (lastsRepeated _ (kept step rfl)) (fun _ => lastsFinish _) e held

theorem lastsCompleteGoto (lasting : Lasting P) (token : Text) :
    Run.Keeps (Within P) (completeGoto token) := by
  unfold completeGoto
  split
  · exact fun e held => keepsBind (lastsJump lasting _ _)
      (fun _ => keepsBind lastsRecordColumn fun _ => lastsFinish _) e held
  · exact lastsAbandon token

theorem lastsCompleteFind (lasting : Lasting P) (opener : Char) (choose : Text → Text → Nat → Option Nat)
    (token : Text) : Run.Keeps (Within P) (completeFind opener choose token) := by
  unfold completeFind
  split
  · refine fun e held => keptReads held fun line _ => ?_
    cases choose token line e.buffer.cursor.col with
    | none => exact lastsFinish _ e held
    | some found =>
      exact keepsBind (lastsJump lasting _ _)
        (fun _ => keepsBind lastsRecordColumn fun _ => lastsFinish _) e held
  · exact lastsAbandon token

theorem lastsCompletePrimeHop (lasting : Lasting P) (token : Text) :
    Run.Keeps (Within P) (completePrimeHop token) := by
  unfold completePrimeHop
  split
  · refine keepsBind (lastsAside fun _ => rfl) fun _ => Run.keepsGet fun e held => ?_
    split
    · exact held
    · exact keepsBind (lastsBuffer (lasting.aside (Buffer.matterSetHopPattern _)))
        (fun _ => keepsBind (lastsAside fun _ => rfl) fun _ => keepsPure _) e held
  · exact lastsAbandon token

theorem lastsCompleteExecuteHop (lasting : Lasting P) (token : Text) :
    Run.Keeps (Within P) (completeExecuteHop token) := by
  have cleared : Run.Keeps (Within P) (onBuffer Buffer.clearHop) :=
    lastsBuffer (lasting.aside fun _ => rfl)
  unfold completeExecuteHop
  split
  · exact keepsBind (lastsPushDigit token) fun _ => keepsPure _
  split
  · refine Run.keepsGet fun e held => ?_
    dsimp only
    refine Run.keptBind (lastsBuffer (lasting.aside (Buffer.matterHopTo _)) e held) fun jumped => ?_
    refine keepsBind cleared fun _ => ?_
    rw [← hopIndex]
    generalize Text.isWritable (hopIndex e) = writable
    have told : Run.Keeps (Within P) (if writable then finish ("hop:".toList ++ Text.ofInt (hopIndex e))
        else Run.fail .tooLongToWrite) := by
      split
      · exact lastsFinish _
      · exact fun _ held => held
    cases jumped with
    | true => exact keepsBind lastsRecordColumn fun _ => told
    | false => exact told
  · exact keepsBind cleared fun _ => lastsAbandon token

theorem lastsComplete (lasting : Lasting P) (command : Command) (token : Text) :
    Run.Keeps (Within P) (complete command token) := by
  refine Run.keepsGet fun e held => ?_
  cases command with
  | none => exact lastsAbandon token e held
  | delete =>
    exact lastsCompleteRepeated 'd' token (fun _ => (lastsCharwise lasting).deletion (lastsDeleteDown lasting _)
      (lastsIgnoring (lasting.deleteLine true))) e held
  | yank => exact lastsCompleteRepeated 'y' token (fun _ => (lastsCharwise lasting).yanking) e held
  | goto => exact lastsCompleteGoto lasting token e held
  | findForward => exact lastsCompleteFind lasting 'f' _ token e held
  | findBackward => exact lastsCompleteFind lasting 'F' _ token e held
  | primeHop => exact lastsCompletePrimeHop lasting token e held
  | executeHop => exact lastsCompleteExecuteHop lasting token e held

theorem lastsPerformBound (lasting : Lasting P) (binding : Binding)
    (action : NamedAction Action) : Run.Keeps (Within P) (performBound binding action) :=
  lastsPerform lasting action.handler

theorem insertablePrintable {token : Text} (printable : KeyPress.isPrintable token = true) :
    Buffer.Insertable token := by
  unfold KeyPress.isPrintable at printable
  split at printable
  · rename_i c
    exact .inr (.inr ⟨c, rfl, printable⟩)
  · contradiction

theorem lastsInsertKey (lasting : Lasting P) (token : Text) : Run.Keeps (Within P) (insertKey token) := by
  refine Run.keepsGet fun e held => ?_
  split
  · exact lastsPerformBound lasting _ _ e held
  · split
    · rename_i printable
      have insertable := insertablePrintable printable
      exact keepsBind (lastsBuffer (lasting.insertText token insertable)) (fun _ => keepsPure _) e held
    · exact held

theorem lastsBoundKey (lasting : Lasting P) (token : Text) : Run.Keeps (Within P) (boundKey token) := by
  refine Run.keepsGet fun e held => ?_
  split
  · exact keepsBind (lastsLog _) (fun _ => keepsBind lastsResetPending fun _ => keepsPure _) e held
  · refine Run.keptBind (lastsPerformBound lasting _ _ e held) fun reply => ?_
    split
    · exact keepsBind lastsResetPending fun _ => keepsPure reply
    · exact keepsPure reply

theorem lastsModalKey (lasting : Lasting P) (token : Text) : Run.Keeps (Within P) (modalKey token) := by
  refine Run.keepsGet fun e held => ?_
  split
  · exact lastsComplete lasting e.command token e held
  split
  · exact keepsBind (lastsPushDigit token) (fun _ => keepsPure _) e held
  · exact lastsBoundKey lasting token e held

theorem lastsRespond (lasting : Lasting P) (reply : Reply) : Run.Keeps (Within P) (respond reply) := by
  intro e held
  obtain ⟨_, -, same⟩ := respondState reply e
  rw [same]
  refine lasting.matter e.buffer _ ?_ held
  unfold responded
  split <;> rfl

theorem lastsKey (lasting : Lasting P) (name : Text) (modifiers : List Text) :
    Run.Keeps (Within P) (key name modifiers) := by
  have settled : ∀ (version : Nat) (reply : Reply), Run.Keeps (Within P) (do
      respond reply
      if (← Run.get).buffer.version ≠ version then recordColumn
      pure reply) := by
    intro version reply
    refine keepsBind (lastsRespond lasting reply) fun _ => Run.keepsGet fun e held => ?_
    dsimp only
    split
    · exact keepsBind lastsRecordColumn (fun _ => keepsPure reply) e held
    · exact held
  refine Run.keepsGet fun e held => ?_
  dsimp only
  split
  · exact keepsBind (lastsInsertKey lasting _) (settled _) e held
  · exact keepsBind (lastsModalKey lasting _) (settled _) e held

end ModalNotes.Editor
