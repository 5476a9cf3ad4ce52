import ModalNotes.Editor.Basic
import ModalNotes.Keymap.Token
import ModalNotes.Text.Digit

/-! What the next key does to a waiting command: it completes it, carries it on or abandons it. -/
namespace ModalNotes.Editor

def abandon (token : Text) : Run Editor Reply := do
  let e ← Run.get
  let line := "abandoning ".toList ++ e.command.name ++ " on key ".toList ++ Text.quoted token
  Run.log { level := Level.debug, logger := Logger.interpreter, head := line }
  resetPending
  pure { status := .aborted }

def finish (message : Text) : Run Editor Reply := do
  resetPending
  pure { message := some message }

def isDigitKey (token : Text) : Bool :=
  match token with
  | [c] => Text.isDigit c
  | _ => false

def pushDigit (token : Text) : Run Editor Unit :=
  match token with
  | [c] =>
    match Text.digitValue? c with
    | some d => Run.modify fun e =>
        { e with pending := { e.pending with digits := e.pending.digits ++ [d] } }
    | none => Run.fail (.notANumber token)
  | _ => Run.fail (.notANumber token)

def ignoringResult (m : Run Buffer Bool) : Run Editor Unit := do
  let _ ← onBuffer m

def charwise? (token : Text) : Option (Run Editor Unit) :=
  match token with
  | ['h'] => some (ignoringResult Buffer.deleteChar)
  | ['l'] => some (ignoringResult Buffer.deleteNextChar)
  | ['w'] => some (ignoringResult Buffer.deleteNextWord)
  | ['b'] => some (ignoringResult Buffer.deleteWord)
  | _ => none

/-- Repeated downward deletions stop above the row where they began. -/
def deleteDown (startRow : Nat) : Run Editor Unit := do
  let e ← Run.get
  if startRow ≤ e.buffer.cursor.row then ignoringResult (Buffer.deleteLine false)

def deletion? (token : Text) (startRow : Nat) : Option (Run Editor Unit) :=
  match token with
  | ['d'] | ['j'] => some (deleteDown startRow)
  | ['k'] => some (ignoringResult (Buffer.deleteLine true))
  | _ => charwise? token

def yanking? (token : Text) : Option (Run Editor Unit) :=
  match token with
  | ['l'] | ['w'] | ['b'] => charwise? token
  | _ => none

def completeRepeated (opener : Char) (step : Option (Run Editor Unit)) (token : Text) :
    Run Editor Reply := do
  match step with
  | none => abandon token
  | some step =>
    let e ← Run.get
    let _ ← repeated e.pending.count step
    finish (opener :: token)

def completeGoto (token : Text) : Run Editor Reply := do
  if token = ['g'] then
    let e ← Run.get
    onBuffer (Buffer.jump (if e.pending.digits.isEmpty then 0 else e.pending.count - 1) 0)
    recordColumn
    finish ['g', 'g']
  else abandon token

def completeFind (opener : Char) (choose : Text → Text → Nat → Option Nat) (token : Text) :
    Run Editor Reply := do
  if KeyPress.isPrintable token then
    let e ← Run.get
    let c := e.buffer.cursor
    let line ← Run.ofExcept (e.buffer.document.line? c.row)
    match choose token line c.col with
    | none => finish (opener :: token)
    | some found =>
      onBuffer (Buffer.jump c.row found)
      recordColumn
      finish (opener :: token)
  else abandon token

def hopLength : Nat := 2

def completePrimeHop (token : Text) : Run Editor Reply := do
  if KeyPress.isPrintable token then
    Run.modify fun e => { e with pending := { e.pending with typed := e.pending.typed ++ token } }
    let e ← Run.get
    if e.pending.typed.length < hopLength then
      pure { status := .pending, message := some Command.primeHop.name }
    else
      let found ← onBuffer (Buffer.setHopPattern e.pending.typed)
      Run.modify fun e =>
        { e with command := .executeHop, pending := { e.pending with digits := [] } }
      pure { status := .pending, message := some ("hop_matches:".toList ++ Text.ofNat found) }
  else abandon token

def endsHop (token : Text) : Bool := token == ['h'] || token == "enter".toList

def completeExecuteHop (token : Text) : Run Editor Reply := do
  if isDigitKey token then
    pushDigit token
    pure { status := .pending, message := some "hop_index".toList }
  else if endsHop token then
    let e ← Run.get
    let index := if e.pending.digits.isEmpty then 0 else e.pending.count
    let jumped ← onBuffer (Buffer.hopTo index)
    onBuffer Buffer.clearHop
    if jumped then recordColumn
    if Text.isWritable index then finish ("hop:".toList ++ Text.ofInt index)
    else Run.fail .tooLongToWrite
  else
    onBuffer Buffer.clearHop
    abandon token

def complete (command : Command) (token : Text) : Run Editor Reply := do
  let e ← Run.get
  match command with
  | .none => abandon token
  | .delete => completeRepeated 'd' (deletion? token e.buffer.cursor.row) token
  | .yank => completeRepeated 'y' (yanking? token) token
  | .goto => completeGoto token
  | .findForward => completeFind 'f' Text.nextOccurrence? token
  | .findBackward => completeFind 'F' Text.prevOccurrence? token
  | .primeHop => completePrimeHop token
  | .executeHop => completeExecuteHop token

end ModalNotes.Editor
