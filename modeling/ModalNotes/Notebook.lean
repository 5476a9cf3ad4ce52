import ModalNotes.Session
import ModalNotes.Storage.Basic

/-! The notebook: saving, loading, deleting and linking notes. A note and its links are saved in one
transaction; a save that fails leaves the session and the tables as they were. -/
namespace ModalNotes

structure Desk where
  session : Session
  storage : Storage
  deriving DecidableEq, Repr

structure SaveOutcome where
  ok : Bool
  message : Text
  noteId : Option Int := none
  report : Option SyncReport := none
  deriving DecidableEq, Repr

namespace Desk

def onSession {α : Type} (m : Run Session α) : Run Desk α :=
  Run.on (·.session) (fun session d => { d with session }) m

def onStorage {α : Type} (m : Run Storage α) : Run Desk α :=
  Run.on (·.storage) (fun storage d => { d with storage }) m

def onLedger {α : Type} (m : Run (Ledger Storage) α) : Run Desk α :=
  Run.on (fun d => { store := d.session.links, world := d.storage })
    (fun l d => { session := { d.session with links := l.store }, storage := l.world }) m

end Desk

namespace Notebook

open Desk

def noteLeg (title body : Text) (hasLinks : Bool) : Run (Ledger Storage) Unit := do
  let l ← Run.get
  let id ← Ledger.onWorld (Storage.write l.store.parent title body hasLinks)
  if l.store.parent.isNone then Ledger.onStore (Run.modify (·.bindParent (some id)))

def failureMessage (failures : List (Leg × Fault)) : Text :=
  match failures.lookup .note with
  | some fault => "Save failed: ".toList ++ fault.message
  | none =>
    let legs := Text.joinWith ", ".toList (failures.map (·.1.name))
    "Save failed, links not saved (".toList ++ legs ++ " failed)".toList

def saveNotes (r : Except Fault (Except (List (Leg × Fault)) SyncReport)) : List (Text × Value) :=
  match r with
  | .ok (.ok report) => [("link_writes".toList, .nat report.writes)]
  | _ => []

/- Only a failed save is taken back here; any other fault is passed on. -/
def trySave (span : Span) (title : Text) :
    Run Desk (Except (List (Leg × Fault)) SyncReport) := do
  let d ← Run.get
  let previous := d.session.noteId
  let leg := noteLeg title d.session.text (!d.session.links.live.isEmpty)
  match ← Run.attempt (onLedger (Ledger.sync Storage.backend (some leg))) with
  | .ok report => pure (.ok report)
  | .error (.syncFailed failures) =>
    let reason := (Fault.syncFailed failures).message
    Run.log { level := Level.warning, logger := Logger.notes,
              head := "note save failed: ".toList ++ reason }
    Run.log (span.cancelled reason)
    let d ← Run.get
    if d.session.noteId ≠ previous then onSession (Run.modify (·.bindNote previous))
    pure (.error failures)
  | .error fault => Run.fail fault

def save : Run Desk SaveOutcome := do
  let d ← Run.get
  let title := Text.strip d.session.title
  let previous := d.session.noteId
  if title.isEmpty then
    pure { ok := false, message := "Give the note a title before saving".toList }
  else
    let span := Span.make Logger.notes "notes::save".toList "notes".toList
      [("note_id".toList, Value.optional .int previous), ("title".toList, .text title)]
    match ← Run.spannedWith span saveNotes (trySave span title) with
    | .error failures =>
      pure { ok := false, message := failureMessage failures, noteId := previous }
    | .ok report =>
      onSession (Run.modify fun s => { s with title }.markSaved)
      let d ← Run.get
      pure {
        ok := true, message := "Saved ".toList ++ Fault.inQuotes title,
        noteId := d.session.noteId, report := some report }

def load (maxHistory id : Int) : Run Storage Session := do
  match ← Storage.note? id with
  | none => Run.fail (.noteNotFound id)
  | some note =>
    let rows ← Storage.rowsOf id
    Session.reopen note.id note.title note.body rows maxHistory

def delete (id : Int) : Run Storage Bool := do
  let found ← Storage.delete id
  Run.log (Entry.event Level.info Logger.notes "notes.deleted".toList
    [("note_id".toList, .int id), ("found".toList, .truth found)])
  pure found

def linkTo (title : Text) : Run Desk (Option Link) := do
  let d ← Run.get
  if d.session.pendingAnchor.isNone then pure none
  else
    let title := Text.strip title
    if title.isEmpty then Run.fail .untitledTarget
    else
      let target ← match ← onStorage (Storage.idOfTitle? title) with
        | some id => pure id
        | none => onStorage (Storage.create title [] false)
      onSession (Session.attachLink target)

end Notebook

end ModalNotes
