import ModalNotes.Editor.Complete
import ModalNotes.Editor.Perform

/-! Keys: one key in, one reply out. A waiting command takes the key; otherwise the keymap of the mode
says what it does. -/
namespace ModalNotes.Editor

def setMode (mode : Mode) : Run Editor Unit := do
  let previous := (← Run.get).mode
  onBuffer Buffer.clearSearch
  let e ← Run.get
  if mode = .visual then
    if e.buffer.selectionStart.isNone then onBuffer Buffer.startSelection
  else onBuffer Buffer.cancelSelection
  Run.modify fun e => { e with mode }
  resetPending
  if previous ≠ mode then
    Run.log (Entry.event Level.debug Logger.interpreter "interpreter.mode".toList
      [("from".toList, .text previous.name), ("to".toList, .text mode.name)])
    let b := (← Run.get).buffer
    Run.emit (.modeChanged {
      mode, cursor := b.cursor, selection := b.selection, version := b.version })

def performBound (binding : Binding) (action : NamedAction Action) : Run Editor Reply :=
  let span := Span.make Logger.interpreter "keymaps::execute".toList "keymaps".toList
    [("binding_id".toList, .text binding.id), ("action".toList, .text action.id)]
  Run.spanned span (perform action.handler)

def insertKey (token : Text) : Run Editor Reply := do
  let e ← Run.get
  match e.registry.lookup Mode.insert.name token with
  | some (binding, action) => performBound binding action
  | none =>
    if KeyPress.isPrintable token then
      onBuffer (Buffer.insertText token)
      pure {}
    else pure { consumed := false, status := .ignored }

def boundKey (token : Text) : Run Editor Reply := do
  let e ← Run.get
  match e.registry.lookup e.mode.name token with
  | none =>
    let line := "unbound key ".toList ++ Text.quoted token ++ " in ".toList ++ e.mode.name
      ++ " mode".toList
    Run.log { level := Level.debug, logger := Logger.interpreter, head := line }
    resetPending
    pure { consumed := false, status := .ignored }
  | some (binding, action) =>
    let reply ← performBound binding action
    if reply.command.isNone then resetPending
    pure reply

def modalKey (token : Text) : Run Editor Reply := do
  let e ← Run.get
  if e.command ≠ .none then complete e.command token
  else if isDigitKey token then
    pushDigit token
    pure { status := .pending, message := some "count".toList }
  else boundKey token

def respond (reply : Reply) : Run Editor Unit := do
  match reply.command with
  | none => pure ()
  | some command => Run.modify fun e => { e with command }
  match reply.switchTo with
  | none => pure ()
  | some mode => setMode mode

def key (name : Text) (modifiers : List Text) : Run Editor Reply := do
  let token := KeyPress.token name modifiers
  let e ← Run.get
  let reply ← if e.mode = .insert then insertKey token else modalKey token
  respond reply
  if (← Run.get).buffer.version ≠ e.buffer.version then recordColumn
  pure reply

end ModalNotes.Editor
