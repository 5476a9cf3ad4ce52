import ModalNotes.Session
import ModalNotes.View.Picture

/-! Screens: a host that shows one session. After every key it is sent what it has to show. -/
namespace ModalNotes

inductive Signal
  | buffer (m : Picture)
  | status (s : Text)
  | linkTarget
  | log (line : Text)
  deriving DecidableEq, Repr

structure Host (σ : Type) where
  view : σ → Session
  update : Session → σ → σ
  deliver : Signal → Run σ Unit

namespace Host

variable {σ α : Type}

def logLine (word : String) (state fields : List (Text × Value)) : Text :=
  word.toList ++ (state ++ fields).flatMap fun (key, value) => ' ' :: key ++ '=' :: value.inner

def cursorValue (c : Cursor) : Value := .tuple [.nat c.row, .nat c.col]

def stateFields (mode : Mode) (cursor : Cursor) (selection : Option Selection) (version : Nat) :
    List (Text × Value) := [
  ("mode".toList, .text mode.name), ("cursor".toList, cursorValue cursor),
  ("selection".toList, Value.optional (fun s => .tuple [cursorValue s.start, cursorValue s.stop]) selection),
  ("buffer_version".toList, .nat version)]

def sessionFields (s : Session) : List (Text × Value) :=
  stateFields s.editor.mode s.buffer.cursor s.buffer.selection s.buffer.version

def report (h : Host σ) (line : Text) : Run σ Unit := do
  Run.log { level := Level.debug, logger := Logger.screen, head := line }
  h.deliver (.log line)

def modeTag (mode : Mode) : Text :=
  "<EditorMode.".toList ++ mode.label ++ ": ".toList ++ Text.quoted mode.name ++ ['>']

def changeLine (c : ModeChange) : Text :=
  logLine "event ->" (stateFields c.mode c.cursor c.selection c.version)
    [("event".toList, .text "mode_changed".toList)] ++ " payload=".toList ++ modeTag c.mode

def relay (h : Host σ) : List Event → Run σ Unit
  | [] => pure ()
  | .log entry :: rest => do Run.log entry; relay h rest
  | .modeChanged change :: rest => do h.report (changeLine change); relay h rest

def watched (h : Host σ) (m : Run Session α) : Run σ α := fun s =>
  let o := m (h.view s)
  let told := h.relay o.trace (h.update o.state s)
  match told.result with
  | .ok _ => ⟨told.state, told.trace, o.result⟩
  | .error fault => ⟨told.state, told.trace, .error fault⟩

def attributes (s : Session) : List (Text × Text) := [
  ("mode".toList, s.editor.mode.name), ("title".toList, s.title),
  ("links".toList, Text.ofNat s.links.live.length)]

def statusParts (s : Session) (reply : Option Reply) : List Text :=
  [s.editor.label, if s.title.isEmpty then "[untitled]".toList else s.title] ++
  (if s.isDirty then [['+']] else []) ++
  (match s.linkAtCursor with
    | some link =>
      if s.editor.mode = .normal then
        ["-> note ".toList ++ Text.ofInt link.linked ++ " (enter)".toList]
      else []
    | none => []) ++
  (if reply.any (·.status == .aborted) then ["(cancelled)".toList] else [])

def statusLine (s : Session) (reply : Option Reply) : Text :=
  Text.joinWith [' ', ' '] (statusParts s reply)

def refresh (h : Host σ) : Run σ Unit := do
  let s := h.view (← Run.get)
  h.deliver (.buffer (s.buffer.picture (attributes s)))

def attach (h : Host σ) (session : Session) : Run σ Unit := do
  Run.modify (h.update session)
  h.refresh
  h.deliver (.status (statusLine session none))

def replyFields (r : Reply) : List (Text × Value) :=
  [("consumed".toList, .truth r.consumed), ("status".toList, .text r.status.name)] ++
  (r.message.map fun m => ("message".toList, Value.text m)).toList

def key (h : Host σ) (name : Text) (modifiers : List Text) : Run σ Reply := do
  let before := h.view (← Run.get)
  h.report (logLine "key ->" (sessionFields before)
    [("key".toList, .text name), ("mods".toList, .tuple (modifiers.map .text))])
  let reply ← h.watched (Session.key name modifiers)
  let after := h.view (← Run.get)
  h.report (logLine "result <-" (sessionFields after) (replyFields reply))
  h.refresh
  h.deliver (.status (statusLine after (some reply)))
  if after.pendingAnchor.isSome then h.deliver .linkTarget
  pure reply

end Host

structure Screen where
  session : Session
  signals : List Signal := []
  deriving DecidableEq, Repr

def Screen.host : Host Screen where
  view := (·.session)
  update := fun session s => { s with session }
  deliver := fun signal => Run.modify fun s => { s with signals := s.signals ++ [signal] }

end ModalNotes
