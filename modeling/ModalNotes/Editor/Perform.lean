import ModalNotes.Editor.Basic

/-! What each action does to an editor. -/
namespace ModalNotes.Editor

def entering (mode : Mode) (message : String) : Reply :=
  { switchTo := some mode, message := some message.toList }

def outcomeOf (changed : Bool) (message : String) : Reply :=
  { status := if changed then .ok else .noop, message := some message.toList }

def moveTo (m : Motion) : Run Editor Unit := do
  moveOnce m
  recordColumn

def searchStep (search : Run Buffer Bool) (message : String) : Run Editor Reply := do
  let moved ← onBuffer search
  if moved then recordColumn
  pure (outcomeOf moved message)

def selectLine : Run Editor Unit := do
  let e ← Run.get
  let row := e.buffer.cursor.row
  onBuffer (Buffer.jump row 0)
  onBuffer Buffer.startSelection
  let line ← Run.ofExcept (e.buffer.document.line? row)
  onBuffer (Buffer.jump row (line.length - 1 : Nat))

def perform : Action → Run Editor Reply
  | .nothing => pure {}
  | .noop => pure { status := .noop }
  | .enterInsert => pure (entering .insert "enter_insert")
  | .append => do moveTo .forward; pure (entering .insert "enter_insert")
  | .appendLineEnd => do moveTo .lineEnd; pure (entering .insert "enter_insert")
  | .insertLineHead => do moveTo .lineHead; pure (entering .insert "enter_insert")
  | .openBelow => do onBuffer Buffer.openLineBelow; pure (entering .insert "open_line")
  | .openAbove => do onBuffer Buffer.openLineAbove; pure (entering .insert "open_line")
  | .exitToNormal => pure (entering .normal "exit")
  | .enterVisual => pure (entering .visual "enter_visual")
  | .enterVisualLine => do selectLine; pure (entering .visual "enter_visual")
  | .move m => do
    let e ← Run.get
    let count ← move m e.pending.count
    pure { message := some (m.name ++ 'x' :: Text.ofInt count) }
  | .lineHead => do moveTo .lineHead; pure { message := some Motion.lineHead.name }
  | .lineEnd => do moveTo .lineEnd; pure { message := some Motion.lineEnd.name }
  | .bottom => do
    let e ← Run.get
    onBuffer (Buffer.jump e.buffer.document.lastRow 0)
    recordColumn
    pure { message := some Motion.bottom.name }
  | .paste => do pure (outcomeOf (← onBuffer Buffer.paste) "paste")
  | .undo => do pure (outcomeOf (← onBuffer Buffer.undo) "undo")
  | .redo => do pure (outcomeOf (← onBuffer Buffer.redo) "redo")
  | .deleteNextChar => do
    let e ← Run.get
    let _ ← repeated e.pending.count do
      let _ ← onBuffer Buffer.deleteNextChar
    pure { message := some "delete_next_char".toList }
  | .deleteToLineEnd => do
    pure (outcomeOf (← onBuffer Buffer.deleteToLineEnd) "delete_to_line_end")
  | .changeToLineEnd => do
    let _ ← onBuffer Buffer.deleteToLineEnd
    pure (entering .insert "change")
  | .searchNext => searchStep Buffer.searchForward "search_next"
  | .searchPrevious => searchStep Buffer.searchBack "search_previous"
  | .arm command opener => do
    Run.modify fun e => { e with pending := { e.pending with typed := e.pending.typed ++ opener } }
    pure { command := some command, status := .pending, message := some command.name }
  | .copy => do
    let _ ← onBuffer Buffer.copy
    pure (entering .normal "copy")
  | .cut => do
    let _ ← onBuffer Buffer.cut
    pure (entering .normal "cut")
  | .align alignment => do
    onBuffer (Run.modify fun b => { b with alignment })
    pure { message := some ("align_".toList ++ alignment.name) }
  | .link => do
    match ← onBuffer Buffer.anchorSelection with
    | none => pure { entering .normal "link" with status := .noop }
    | some id =>
      pure { switchTo := some .normal, message := some ("link_anchor:".toList ++ Text.ofInt id) }
  | .newline => do onBuffer Buffer.insertNewline; pure {}
  | .backspace => do
    let _ ← onBuffer Buffer.deleteChar
    pure {}
  | .deleteForward => do
    let _ ← onBuffer Buffer.deleteNextChar
    pure {}
  | .tab => do onBuffer Buffer.insertTab; pure {}
  | .arrow m => do
    let _ ← move m 1
    pure {}

end ModalNotes.Editor
