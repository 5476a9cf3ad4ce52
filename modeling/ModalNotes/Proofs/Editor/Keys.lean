import ModalNotes.Proofs.Editor.Sound

/-! Keys on sound editors. The ones that fail are known exactly: a digit that no number is written with,
where digits are read, and the end of a hop whose index is too long to be written. -/
namespace ModalNotes.Editor

/- The key is a digit that no number is written with, and it is read as a digit. -/
def Misread (e : Editor) (token : Text) : Prop :=
  e.mode ≠ .insert ∧ (e.command = .none ∨ e.command = .executeHop) ∧
    ∃ c, token = [c] ∧ Text.isDigit c = true ∧ Text.isDecimal c = false

def hopIndex (e : Editor) : Int := if e.pending.digits.isEmpty then 0 else e.pending.count

/- The key ends a hop, and the index of the hop is too long to be written. -/
def Overlong (e : Editor) (token : Text) : Prop :=
  e.mode ≠ .insert ∧ e.command = .executeHop ∧ endsHop token = true ∧
    Text.isWritable (hopIndex e) = false

theorem resetEnds {e : Editor} : resetPending.Ends e fun _ later =>
    later = { e with command := .none, pending := {} } := Run.endsModify.mpr rfl

theorem abandonEnds (e : Editor) (token : Text) : (abandon token).Ends e fun reply later =>
    Quiet reply ∧ later = { e with command := .none, pending := {} } := by
  unfold abandon
  rw [Run.endsBind, Run.endsGet]
  dsimp only
  rw [Run.endsBind, Run.endsLog, Run.endsBind]
  refine Run.endsMono resetEnds ?_
  intro _ later same
  obtain rfl := same
  exact Run.endsPure.mpr ⟨⟨rfl, rfl⟩, rfl⟩

theorem finishEnds (e : Editor) (message : Text) : (finish message).Ends e fun reply later =>
    Quiet reply ∧ later = { e with command := .none, pending := {} } := by
  unfold finish
  rw [Run.endsBind]
  refine Run.endsMono resetEnds ?_
  intro _ later same
  obtain rfl := same
  exact Run.endsPure.mpr ⟨⟨rfl, rfl⟩, rfl⟩

theorem handledDone {e f later : Editor} {reply : Reply} (edited : Edited e f)
    (still : e.mode = .visual → f.buffer.document = e.buffer.document)
    (done : Quiet reply ∧ later = { f with command := .none, pending := {} }) :
    Handled e later reply := by
  obtain ⟨quiet, rfl⟩ := done
  exact handledQuiet quiet edited.follows edited.controls.registry edited.controls.mode (.inl rfl)
    edited.selection still

theorem abandonHandled {e : Editor} (sound : e.buffer.Sound) (token : Text) :
    (abandon token).Ends e fun reply later => Handled e later reply := by
  refine Run.endsMono (abandonEnds e token) ?_
  intro reply later done
  exact handledDone (editedProgress.refl e sound) (fun _ => rfl) done

theorem editsIgnoring {m : Run Buffer Bool} (safe : Buffer.Safe m) : Along Edited (ignoringResult m) :=
  alongBind editedProgress (editsBuffer safe) fun _ => alongPure editedProgress ()

structure Charwise (P : Run Editor Unit → Prop) : Prop where
  char : P (ignoringResult Buffer.deleteChar)
  nextChar : P (ignoringResult Buffer.deleteNextChar)
  nextWord : P (ignoringResult Buffer.deleteNextWord)
  word : P (ignoringResult Buffer.deleteWord)

section
variable {P : Run Editor Unit → Prop} {token : Text} {step : Run Editor Unit}

theorem Charwise.known (charwise : Charwise P) (h : charwise? token = some step) : P step := by
  unfold charwise? at h
  split at h
  · cases h
    exact charwise.char
  · cases h
    exact charwise.nextChar
  · cases h
    exact charwise.nextWord
  · cases h
    exact charwise.word
  · contradiction

theorem Charwise.deletion (charwise : Charwise P) {startRow : Nat} (down : P (deleteDown startRow))
    (up : P (ignoringResult (Buffer.deleteLine true))) (h : deletion? token startRow = some step) : P step := by
  unfold deletion? at h
  split at h
  · cases h
    exact down
  · cases h
    exact down
  · cases h
    exact up
  · exact charwise.known h

theorem Charwise.yanking (charwise : Charwise P) (h : yanking? token = some step) : P step := by
  unfold yanking? at h
  split at h
  · exact charwise.known h
  · exact charwise.known h
  · exact charwise.known h
  · contradiction

end

theorem charwiseEdits : Charwise (Along Edited) where
  char := editsIgnoring Buffer.safeDeleteChar
  nextChar := editsIgnoring Buffer.safeDeleteNextChar
  nextWord := editsIgnoring Buffer.safeDeleteNextWord
  word := editsIgnoring Buffer.safeDeleteWord

theorem deleteDownEdits (startRow : Nat) : Along Edited (deleteDown startRow) := by
  intro e sound
  unfold deleteDown
  rw [Run.endsBind, Run.endsGet]
  split
  · exact editsIgnoring (Buffer.safeDeleteLine false) e sound
  · exact alongPure editedProgress () e sound

theorem completeRepeatedEnds {e : Editor} (sound : e.buffer.Sound) (other : e.mode ≠ .visual)
    (opener : Char) {step : Option (Run Editor Unit)} (token : Text)
    (edits : ∀ s, step = some s → Along Edited s) :
    (completeRepeated opener step token).Ends e fun reply later => Handled e later reply := by
  unfold completeRepeated
  cases step with
  | none => exact abandonHandled sound token
  | some step =>
    dsimp only
    rw [Run.endsBind, Run.endsGet, Run.endsBind]
    refine Run.endsMono (alongRepeated editedProgress _ (edits step rfl) e sound) ?_
    intro _ f edited
    refine Run.endsMono (finishEnds f _) ?_
    intro reply later done
    exact handledDone edited (fun visual => absurd visual other) done

theorem moveFinish {α : Type} {m : Run Editor α} {e : Editor} (sound : e.buffer.Sound)
    (moves : Along Moved m) (message : Text) :
    Run.Ends (do let _ ← m; finish message) e fun reply later => Handled e later reply := by
  rw [Run.endsBind]
  refine Run.endsMono (moves e sound) ?_
  intro _ f moved
  refine Run.endsMono (finishEnds f message) ?_
  intro reply later done
  exact handledDone (moved.edited sound) (fun _ => moved.steady.document) done

theorem movesJump (row col : Int) : Along Moved (do
    onBuffer (Buffer.jump row col)
    recordColumn) :=
  alongBind movedProgress (movesBuffer (Buffer.calmJump row col)) fun _ => movesRecordColumn

theorem completeGotoEnds {e : Editor} (sound : e.buffer.Sound) (token : Text) :
    (completeGoto token).Ends e fun reply later => Handled e later reply := by
  unfold completeGoto
  split
  · rw [Run.endsBind, Run.endsGet]
    have run := moveFinish sound (movesJump (if e.pending.digits.isEmpty then 0
      else e.pending.count - 1) 0) ['g', 'g']
    simpa only [bind_assoc] using run
  · exact abandonHandled sound token

theorem completeFindEnds {e : Editor} (sound : e.buffer.Sound) (opener : Char)
    (choose : Text → Text → Nat → Option Nat) (token : Text) :
    (completeFind opener choose token).Ends e fun reply later => Handled e later reply := by
  unfold completeFind
  split
  · obtain ⟨line, ok, -, -⟩ := Document.lineOk sound.cursor.1
    rw [Run.endsBind, Run.endsGet]
    dsimp only
    rw [Run.endsBind, Run.endsOfExcept]
    refine ⟨line, ok, ?_⟩
    split
    · have run := moveFinish sound (alongPure movedProgress ()) (opener :: token)
      simpa only [Run.endsBind, Run.endsPure] using run
    · rename_i found _
      have run := moveFinish sound (movesJump e.buffer.cursor.row found) (opener :: token)
      simpa only [bind_assoc] using run
  · exact abandonHandled sound token

theorem completePrimeHopEnds {e : Editor} (sound : e.buffer.Sound) (prime : e.command = .primeHop)
    (other : e.mode ≠ .insert) (token : Text) :
    (completePrimeHop token).Ends e fun reply later => Handled e later reply := by
  unfold completePrimeHop
  split
  · rw [Run.endsBind, Run.endsModify, Run.endsBind, Run.endsGet]
    split
    · rw [Run.endsPure]
      exact handledQuiet ⟨rfl, rfl⟩ (Buffer.followsRefl sound) rfl rfl (.inr ⟨other, .inl prime⟩) rfl
        fun _ => rfl
    · rw [Run.endsBind, endsOnBuffer]
      refine Run.endsMono (Buffer.setHopPatternEnds sound _) ?_
      intro found b post
      obtain ⟨steady, selection, hops⟩ := post
      rw [Run.endsBind, Run.endsModify, Run.endsPure]
      exact handledQuiet ⟨rfl, rfl⟩ (steady.follows sound) rfl rfl (.inr ⟨other, .inr ⟨rfl, hops⟩⟩)
        selection fun _ => steady.document
  · exact abandonHandled sound token

def Ending (e : Editor) (token : Text) (done : Reply → Editor → Prop) (r : Except Fault Reply)
    (later : Editor) : Prop :=
  match r with
  | .ok reply => done reply later ∧ ¬ Misread e token ∧ ¬ Overlong e token
  | .error fault =>
    Misread e token ∧ fault = .notANumber token ∧ later = e ∨
      Overlong e token ∧ fault = .tooLongToWrite ∧ later.Sound ∧ e.buffer.Steady later.buffer

theorem pushDigitEnding {e : Editor} {token : Text} {done : Reply → Editor → Prop} (reply : Reply)
    (other : e.mode ≠ .insert) (reads : e.command = .none ∨ e.command = .executeHop)
    (digit : isDigitKey token = true) (notEnd : endsHop token = false)
    (pushed : ∀ digits, done reply { e with pending := { e.pending with digits } }) :
    Run.After (do pushDigit token; pure reply) e (Ending e token done) := by
  unfold isDigitKey at digit
  split at digit
  · rename_i c
    rw [Run.afterBind]
    unfold pushDigit
    dsimp only
    cases value : Text.digitValue? c with
    | some d =>
      refine ⟨pushed _, ?_, ?_⟩
      · intro post
        obtain ⟨-, -, c', same, -, refused⟩ := post
        cases same
        simp [Text.isDecimal, value] at refused
      · intro post
        obtain ⟨-, -, ends, -⟩ := post
        exact Bool.false_ne_true (notEnd.symm.trans ends)
    | none =>
      exact .inl ⟨⟨other, reads, c, rfl, digit, by simp [Text.isDecimal, value]⟩, rfl, rfl⟩
  · contradiction

theorem overlongEnding {e f : Editor} {token : Text} {done : Reply → Editor → Prop}
    (long : Overlong e token) (sound : f.Sound) (steady : e.buffer.Steady f.buffer) :
    (Run.fail .tooLongToWrite : Run Editor Reply).After f (Ending e token done) :=
  Or.inr ⟨long, rfl, sound, steady⟩

theorem digitNotEnd {token : Text} (digit : isDigitKey token = true) : endsHop token = false := by
  unfold isDigitKey at digit
  split at digit
  · rename_i c
    have notLetter : c ≠ 'h' := by
      intro same
      obtain rfl := same
      exact absurd digit (by decide +kernel)
    simp [endsHop, notLetter]
  · contradiction

theorem completeExecuteHopAfter {e : Editor} (sound : e.Sound) (hop : e.command = .executeHop)
    (other : e.mode ≠ .insert) (token : Text) :
    (completeExecuteHop token).After e
      (Ending e token fun reply later => Handled e later reply) := by
  have notMisread : isDigitKey token ≠ true → ¬ Misread e token := by
    intro noDigit post
    obtain ⟨-, -, c, rfl, digit, -⟩ := post
    exact noDigit digit
  unfold completeExecuteHop
  split
  · rename_i digit
    refine pushDigitEnding _ other (.inr hop) digit (digitNotEnd digit) fun digits => ?_
    exact handledQuiet ⟨rfl, rfl⟩ (Buffer.followsRefl sound.buffer) rfl rfl
      (.inr ⟨other, .inr ⟨hop, sound.hops hop⟩⟩) rfl fun _ => rfl
  · rename_i noDigit
    split
    · rename_i ends
      refine Run.afterBindEnds (Run.endsGet.mpr ?_)
      dsimp only
      rw [← hopIndex]
      generalize writes : Text.isWritable (hopIndex e) = writable
      refine Run.afterBindEnds (endsOnBuffer.mpr ?_)
      refine Run.endsMono (Buffer.hopToEnds sound.buffer (sound.hops hop) _) ?_
      intro jumped b post
      obtain ⟨steady, selection⟩ := post
      have sound' := (steady.follows sound.buffer).sound
      refine Run.afterBindEnds (endsOnBuffer.mpr ?_)
      refine Run.endsMono (Buffer.clearHopEnds sound') ?_
      intro _ b' post
      obtain ⟨steady', selection', -, none⟩ := post
      have both := steady.trans steady'
      have same := selection'.trans selection
      have last : ∀ f : Editor, f.buffer = b' → f.registry = e.registry → f.mode = e.mode →
          f.command = e.command →
          (if writable then finish ("hop:".toList ++ Text.ofInt (hopIndex e))
            else Run.fail .tooLongToWrite).After f
            (Ending e token fun reply later => Handled e later reply) := by
        intro f buffer registry mode command
        cases writable with
        | true =>
          rw [if_pos rfl]
          refine Run.afterOfEnds (Run.endsMono (finishEnds f _) ?_)
          intro reply later done
          have edited : Edited e f := ⟨buffer ▸ both.follows sound.buffer, buffer ▸ same,
            registry, mode, command⟩
          refine ⟨handledDone edited (fun _ => buffer ▸ both.document) done, notMisread noDigit, ?_⟩
          intro post
          obtain ⟨-, -, -, long⟩ := post
          exact Bool.false_ne_true (long.symm.trans writes)
        | false =>
          rw [if_neg Bool.false_ne_true]
          have kept : f.Sound := {
            registry := registry.trans sound.registry
            buffer := buffer ▸ (both.follows sound.buffer).sound
            selects := buffer ▸ selectsSteady both sound.selects same
            unselected := fun h => buffer ▸ same.trans (sound.unselected (mode ▸ h))
            hops := fun _ c member => by
              rw [buffer, none] at member
              exact absurd member List.not_mem_nil
            inserting := fun h => absurd (mode ▸ h) other
            visual := fun _ => by simp [command, hop] }
          exact overlongEnding ⟨other, hop, ends, writes⟩ kept (buffer ▸ both)
      dsimp only
      split
      · refine Run.afterBindEnds ?_
        rw [recordColumn, Run.endsModify]
        exact last _ rfl rfl rfl rfl
      · exact last _ rfl rfl rfl rfl
    · rename_i noEnd
      refine Run.afterBindEnds (endsOnBuffer.mpr ?_)
      refine Run.endsMono (Buffer.clearHopEnds sound.buffer) ?_
      intro _ b post
      obtain ⟨steady, selection, -, -⟩ := post
      refine Run.afterOfEnds (Run.endsMono (abandonEnds { e with buffer := b } token) ?_)
      intro reply later done
      have edited : Edited e { e with buffer := b } :=
        ⟨steady.follows sound.buffer, selection, rfl, rfl, rfl⟩
      refine ⟨handledDone edited (fun _ => steady.document) done, notMisread noDigit, ?_⟩
      intro post
      obtain ⟨-, -, ends, -⟩ := post
      exact noEnd ends

theorem completeAfter {e : Editor} (sound : e.Sound) (other : e.mode ≠ .insert)
    (waits : e.command ≠ .none) (token : Text) :
    (complete e.command token).After e (Ending e token fun reply later => Handled e later reply) := by
  have settled : e.command ≠ .executeHop →
      (complete e.command token).Ends e (fun reply later => Handled e later reply) →
      (complete e.command token).After e
        (Ending e token fun reply later => Handled e later reply) := by
    intro noHop ends
    refine Run.afterOfEnds (Run.endsMono ends ?_)
    intro reply later handled
    refine ⟨handled, ?_, ?_⟩
    · intro post
      obtain ⟨-, idle | hop, -⟩ := post
      · exact waits idle
      · exact noHop hop
    · intro post
      obtain ⟨-, hop, -⟩ := post
      exact noHop hop
  have visual : e.command = .delete ∨ e.command = .yank → e.mode ≠ .visual := by
    intro command visual
    obtain ⟨noDelete, noYank⟩ := sound.visual visual
    rcases command with delete | yank
    · exact noDelete delete
    · exact noYank yank
  cases command : e.command with
  | none => exact absurd command waits
  | executeHop =>
    unfold complete
    exact Run.afterBindEnds (Run.endsGet.mpr (completeExecuteHopAfter sound command other token))
  | delete =>
    rw [command] at settled
    refine settled (by decide) ?_
    unfold complete
    rw [Run.endsBind, Run.endsGet]
    exact completeRepeatedEnds sound.buffer (visual (.inl command)) 'd' token fun _ =>
      charwiseEdits.deletion (deleteDownEdits _) (editsIgnoring (Buffer.safeDeleteLine true))
  | yank =>
    rw [command] at settled
    refine settled (by decide) ?_
    unfold complete
    rw [Run.endsBind, Run.endsGet]
    exact completeRepeatedEnds sound.buffer (visual (.inr command)) 'y' token fun _ => charwiseEdits.yanking
  | goto =>
    rw [command] at settled
    refine settled (by decide) ?_
    unfold complete
    rw [Run.endsBind, Run.endsGet]
    exact completeGotoEnds sound.buffer token
  | findForward =>
    rw [command] at settled
    refine settled (by decide) ?_
    unfold complete
    rw [Run.endsBind, Run.endsGet]
    exact completeFindEnds sound.buffer 'f' _ token
  | findBackward =>
    rw [command] at settled
    refine settled (by decide) ?_
    unfold complete
    rw [Run.endsBind, Run.endsGet]
    exact completeFindEnds sound.buffer 'F' _ token
  | primeHop =>
    rw [command] at settled
    refine settled (by decide) ?_
    unfold complete
    rw [Run.endsBind, Run.endsGet]
    exact completePrimeHopEnds sound.buffer command other token

theorem performBoundEnds {e : Editor} (sound : e.Sound) {token : Text} {binding : Binding}
    {action : NamedAction Action}
    (found : e.registry.lookup e.mode.name token = some (binding, action)) :
    (performBound binding action).Ends e fun reply later => Performed e later reply := by
  rw [sound.registry] at found
  unfold performBound
  rw [Run.endsSpanned]
  exact performEnds sound.buffer sound.selects (Keymap.standardAllows found)

theorem insertKeyEnds {e : Editor} (sound : e.Sound) (insert : e.mode = .insert) (token : Text) :
    (insertKey token).Ends e fun reply later => Handled e later reply := by
  have idle := sound.inserting insert
  unfold insertKey
  rw [Run.endsBind, Run.endsGet, ← insert]
  split
  · rename_i binding action found
    refine Run.endsMono (performBoundEnds sound found) ?_
    intro reply later performed
    exact handledOfPerformed performed (performed.controls.command.trans idle)
  · split
    · rw [Run.endsBind]
      refine Run.endsMono (editsBuffer (Buffer.safeInsertText token) e sound.buffer) ?_
      intro _ later edited
      rw [Run.endsPure]
      refine handledQuiet ⟨rfl, rfl⟩ edited.follows edited.controls.registry edited.controls.mode
        (.inl (edited.controls.command.trans idle)) edited.selection fun visual => ?_
      exact absurd (insert.symm.trans visual) (by decide)
    · rw [Run.endsPure]
      exact handledQuiet ⟨rfl, rfl⟩ (Buffer.followsRefl sound.buffer) rfl rfl (.inl idle) rfl
        fun _ => rfl

theorem boundKeyEnds {e : Editor} (sound : e.Sound) (idle : e.command = .none) (token : Text) :
    (boundKey token).Ends e fun reply later => Handled e later reply := by
  unfold boundKey
  rw [Run.endsBind, Run.endsGet]
  split
  · rw [Run.endsBind, Run.endsLog, Run.endsBind]
    refine Run.endsMono resetEnds ?_
    intro _ later same
    obtain rfl := same
    rw [Run.endsPure]
    exact handledQuiet ⟨rfl, rfl⟩ (Buffer.followsRefl sound.buffer) rfl rfl (.inl rfl) rfl
      fun _ => rfl
  · rename_i binding action found
    rw [Run.endsBind]
    refine Run.endsMono (performBoundEnds sound found) ?_
    intro reply later performed
    split
    · rw [Run.endsBind]
      refine Run.endsMono resetEnds ?_
      intro _ last same
      obtain rfl := same
      rw [Run.endsPure]
      exact ⟨performed.turns, performed.controls.registry, performed.controls.mode, .inl rfl,
        performed.armed, performed.staying, performed.selecting⟩
    · rw [Run.endsPure]
      exact handledOfPerformed performed (performed.controls.command.trans idle)

theorem modalKeyAfter {e : Editor} (sound : e.Sound) (other : e.mode ≠ .insert) (token : Text) :
    (modalKey token).After e (Ending e token fun reply later => Handled e later reply) := by
  unfold modalKey
  refine Run.afterBindEnds (Run.endsGet.mpr ?_)
  split
  · rename_i waits
    exact completeAfter sound other waits token
  · rename_i idle
    have idle' : e.command = .none := Decidable.not_not.mp idle
    have noHop : e.command ≠ .executeHop := fun hop => absurd (idle'.symm.trans hop) (by decide)
    split
    · rename_i digit
      refine pushDigitEnding _ other (.inl idle') digit (digitNotEnd digit) fun digits => ?_
      exact handledQuiet ⟨rfl, rfl⟩ (Buffer.followsRefl sound.buffer) rfl rfl (.inl idle') rfl
        fun _ => rfl
    · rename_i noDigit
      refine Run.afterOfEnds (Run.endsMono (boundKeyEnds sound idle' token) ?_)
      intro reply later handled
      refine ⟨handled, ?_, ?_⟩
      · intro post
        obtain ⟨-, -, c, rfl, digit, -⟩ := post
        exact noDigit digit
      · intro post
        obtain ⟨-, hop, -⟩ := post
        exact noHop hop

theorem replyEnds {e middle : Editor} {reply : Reply} (sound : e.Sound)
    (handled : Handled e middle reply) :
    Run.Ends (do
      respond reply
      if (← Run.get).buffer.version ≠ e.buffer.version then recordColumn
      pure reply) middle fun _ later => Keyed e later := by
  rw [Run.endsBind]
  refine Run.endsMono (respondEnds sound handled) ?_
  intro _ later keyed
  rw [Run.endsBind, Run.endsGet]
  split
  · rw [Run.endsBind, recordColumn, Run.endsModify, Run.endsPure]
    obtain ⟨registry, buffer, selects, unselected, hops, inserting, visual⟩ := keyed.sound
    exact ⟨⟨registry, buffer, selects, unselected, hops, inserting, visual⟩, keyed.turns⟩
  · rw [Run.endsPure]
    exact keyed

theorem replyAfter {e : Editor} {token : Text} {m : Run Editor Reply} (sound : e.Sound)
    (handled : m.After e (Ending e token fun reply later => Handled e later reply)) :
    Run.After (do
      let reply ← m
      respond reply
      if (← Run.get).buffer.version ≠ e.buffer.version then recordColumn
      pure reply) e (Ending e token fun _ later => Keyed e later) := by
  rw [Run.afterBind]
  refine Run.afterMono handled ?_
  intro r middle ending
  cases r with
  | error fault => exact ending
  | ok reply =>
    obtain ⟨handled', noMisread, noOverlong⟩ := ending
    refine Run.afterOfEnds (Run.endsMono (replyEnds sound handled') ?_)
    intro _ later keyed
    exact ⟨keyed, noMisread, noOverlong⟩

theorem keyAfter {e : Editor} (sound : e.Sound) (name : Text) (modifiers : List Text) :
    (key name modifiers).After e
      (Ending e (KeyPress.token name modifiers) fun _ later => Keyed e later) := by
  unfold key
  dsimp only
  refine Run.afterBindEnds (Run.endsGet.mpr ?_)
  split
  · rename_i insert
    refine replyAfter sound (Run.afterOfEnds (Run.endsMono (insertKeyEnds sound insert _) ?_))
    intro reply later handled
    exact ⟨handled, fun misread => misread.1 insert, fun overlong => overlong.1 insert⟩
  · rename_i other
    exact replyAfter sound (modalKeyAfter sound other _)

end ModalNotes.Editor
