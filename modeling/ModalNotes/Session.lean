import ModalNotes.Editor.Keys
import ModalNotes.Link.Store

/-! Sessions: one note open for editing, with its links. After a key that changed the text the links
follow their anchors; an anchor that was just drawn waits for the note it is to lead to. -/
namespace ModalNotes

structure Session where
  editor : Editor
  title : Text := []
  links : LinkStore := {}
  pendingAnchor : Option Int := none
  /-- The version of the text that was saved last. -/
  savedVersion : Nat := 0
  deriving DecidableEq, Repr

namespace Session

def buffer (s : Session) : Buffer := s.editor.buffer

def text (s : Session) : Text := s.buffer.text

def noteId (s : Session) : Option Int := s.links.parent

def isDirty (s : Session) : Bool := s.buffer.version != s.savedVersion

def ofBuffer (registry : Registry Action) (buffer : Buffer) (title : Text) (links : LinkStore) :
    Session :=
  { editor := { buffer, registry }, title, links, savedVersion := buffer.version }

def standardKeymap {σ : Type} : Run σ (Registry Action) := fun s =>
  ⟨s, Keymap.standard.trace, .ok Keymap.standard.state⟩

def fresh {σ : Type} (title text : Text) (maxHistory : Int) : Run σ Session := do
  let registry ← standardKeymap
  pure (ofBuffer registry (Buffer.ofText text maxHistory) title {})

def reopen {σ : Type} (noteId : Int) (title body : Text) (rows : List LinkRow) (maxHistory : Int) :
    Run σ Session := do
  let links ← Run.ofExcept (LinkStore.ofRows noteId rows)
  let anchors : AnchorTable := ⟨links.all.map fun l => (l.anchor, l.toAnchor)⟩
  let buffer := { Buffer.ofDocument (Document.ofText body) maxHistory anchors with
    name := "note-".toList ++ Text.ofInt noteId }
  let registry ← standardKeymap
  pure (ofBuffer registry buffer title links)

def onEditor {α : Type} (m : Run Editor α) : Run Session α :=
  Run.on (·.editor) (fun editor s => { s with editor }) m

def onBuffer {α : Type} (m : Run Buffer α) : Run Session α := onEditor (Editor.onBuffer m)

def onLinks {α : Type} (m : Run LinkStore α) : Run Session α :=
  Run.on (·.links) (fun links s => { s with links }) m

def cancelLink : Run Session Unit := do
  let s ← Run.get
  match s.pendingAnchor with
  | none => pure ()
  | some id =>
    let _ ← onBuffer (Buffer.removeAnchor id)
    Run.modify fun s => { s with pendingAnchor := none }

def key (name : Text) (modifiers : List Text) : Run Session Reply := do
  let before ← Run.get
  let reply ← onEditor (Editor.key name modifiers)
  let s ← Run.get
  if s.buffer.version ≠ before.buffer.version then
    let _ ← onLinks (LinkStore.reconcile s.buffer.anchors)
  match ← onBuffer Buffer.takeNewAnchor with
  | none => pure reply
  | some id =>
    cancelLink
    Run.modify fun s => { s with pendingAnchor := some id }
    pure reply

def search (pattern : Option Text) : Run Session Bool := do
  onBuffer (Buffer.setSearchPattern pattern)
  if ← onBuffer Buffer.searchForward then
    onEditor Editor.recordColumn
    pure true
  else pure false

def attachLink (linked : Int) : Run Session (Option Link) := do
  let s ← Run.get
  Run.put { s with pendingAnchor := none }
  match s.pendingAnchor with
  | none => pure none
  | some id =>
    match (s.buffer.anchors.get? id).filter (!·.deleted) with
    | none =>
      let line := "pending anchor ".toList ++ Text.ofInt id ++ " vanished before linking".toList
      Run.log { level := Level.debug, logger := Logger.session, head := line }
      pure none
    | some a =>
      let (links, link) ← Run.ofExcept (s.links.insert {
        parent := s.noteId, anchor := id, linked, row := a.row, startCol := a.startCol,
        endCol := a.endCol })
      Run.modify fun s => { s with links }
      Run.log (Entry.event Level.info Logger.session "links.attached".toList
        [("anchor_id".toList, .int id), ("linked_note_id".toList, .int linked)])
      pure (some link)

def linkAtCursor (s : Session) : Option Link := s.links.linkAt s.buffer.cursor.toPoint

def rows (s : Session) : Except Fault (List LinkRow) := s.links.rows

def bindNote (s : Session) (noteId : Option Int) : Session :=
  { s with links := s.links.bindParent noteId }

def markSaved (s : Session) : Session := { s with savedVersion := s.buffer.version }

end Session

end ModalNotes
