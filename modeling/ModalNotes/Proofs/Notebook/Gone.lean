import ModalNotes.Proofs.Notebook.Workspace
import ModalNotes.Proofs.Storage.Delete

/-! Saves of a note that is gone. The note leg does not find the note, so the save ends before any link is
written, and its message names the note. -/
namespace ModalNotes

namespace Storage

theorem writeGone {s : Storage} {id : Int} (there : s.working.notes.isSome = true)
    (gone : s.working.noteOf id = none) (narrow : Database.fits id = true) (title body : Text)
    (hasLinks : Bool) :
    (write (some id) title body hasLinks).After s fun r _ => r = .error (.noteNotFound id) := by
  unfold write
  refine Run.afterBindEnds (Run.endsGet.mpr (Run.failsBind ?_))
  rw [afterWithin]
  unfold writeNote
  rw [Run.afterBind]
  refine Run.afterMono (sendAfter (f := (·.note? id)) Notebook.noteNeedsTable) ?_
  intro r t post
  obtain ⟨-, sent⟩ := post
  rw [Notebook.noteAsked there, Notebook.sentOne, if_pos narrow, gone] at sent
  cases r with
  | error fault => contradiction
  | ok found =>
    cases sent
    rfl

end Storage

namespace Ledger

variable {l : Ledger Storage} {id : Int}

theorem noteLegGone (parent : l.store.parent = some id) (there : l.world.working.notes.isSome = true)
    (gone : l.world.working.noteOf id = none) (narrow : Database.fits id = true) (title body : Text)
    (hasLinks : Bool) :
    (Notebook.noteLeg title body hasLinks).After l fun r _ => r = .error (.noteNotFound id) := by
  unfold Notebook.noteLeg
  refine Run.afterBindEnds (Run.endsGet.mpr (Run.failsBind ?_))
  rw [parent]
  exact Storage.writeGone there gone narrow title body hasLinks

theorem syncGone (parent : l.store.parent = some id) (there : l.world.committed.notes.isSome = true)
    (gone : l.world.committed.noteOf id = none) (narrow : Database.fits id = true) (title body : Text)
    (hasLinks : Bool) :
    (sync Storage.backend (some (Notebook.noteLeg title body hasLinks))).After l fun r _ =>
      r = .error (.syncFailed [(.note, .noteNotFound id)]) := by
  unfold sync
  refine Run.afterBindEnds (Run.endsGet.mpr ?_)
  simp only [Option.isNone_some, Bool.and_false, Bool.false_and, Bool.false_eq_true, if_false]
  refine Run.failsBind ?_
  rw [Run.afterSpannedWith, afterInTransaction]
  unfold transact
  refine Run.failsBind ?_
  unfold runNoteLeg
  refine Run.afterBindEnds (Run.endsAttempt.mpr ?_)
  have leg := noteLegGone (l := { l with world := Storage.begin l.world }) parent there gone narrow title
    body hasLinks
  refine Run.afterMono leg ?_
  intro r t same
  cases same
  rfl

end Ledger

namespace Notebook

theorem trySaveGone {d : Desk} {id : Int} (bound : d.session.noteId = some id)
    (there : d.storage.committed.notes.isSome = true) (gone : d.storage.committed.noteOf id = none)
    (narrow : Database.fits id = true) (span : Span) (title : Text) :
    (trySave span title).Ends d fun r _ => r = .error [(.note, .noteNotFound id)] := by
  unfold trySave
  rw [Run.endsBind, Run.endsGet]
  dsimp only
  rw [Run.endsBind, Run.endsAttempt, Desk.onLedger, Run.afterOn]
  have run := Ledger.syncGone (l := ⟨d.session.links, d.storage⟩) bound there gone narrow title
    d.session.text (!d.session.links.live.isEmpty)
  refine Run.afterMono run ?_
  intro r t same
  cases same
  dsimp only
  rw [Run.endsBind, Run.endsLog, Run.endsBind, Run.endsLog, Run.endsBind, Run.endsGet]
  split
  · rw [Run.endsBind, Desk.onSession, Run.endsOn, Run.endsModify, Run.endsPure]
  · rw [Run.endsPure]

theorem savedByGone {d : Desk} {id : Int} (rooted : d.storage.committed.Rooted)
    (bound : d.session.noteId = some id) (gone : d.storage.committed.noteOf id = none) :
    savedBy d = none := by
  cases given : savedBy d with
  | none => rfl
  | some r =>
    obtain ⟨n, db⟩ := r
    have saves := Workspace.savedTables rooted given
    have known := saves.there id bound
    rw [← saves.same id bound, gone] at known
    contradiction

theorem saveGone {d : Desk} {id : Int} (rooted : d.storage.committed.Rooted)
    (owned : d.session.links.Owned) (bound : d.session.noteId = some id)
    (gone : d.storage.committed.noteOf id = none) (narrow : Database.fits id = true) :
    save.Ends d fun out t => out.ok = false ∧ t.session = d.session ∧
      t.storage.committed = d.storage.committed ∧
      ((Text.strip d.session.title).isEmpty = false →
        out.message = "Save failed: ".toList ++ (Fault.noteNotFound id).message) := by
  have told : save.Ends d fun out _ => (Text.strip d.session.title).isEmpty = false →
      out.message = "Save failed: ".toList ++ (Fault.noteNotFound id).message := by
    unfold save
    rw [Run.endsBind, Run.endsGet]
    dsimp only
    split
    · rename_i blank
      refine Run.endsPure.mpr fun titled => ?_
      rw [blank] at titled
      contradiction
    · rw [Run.endsBind, Run.endsSpannedWith]
      refine Run.endsMono (trySaveGone bound rooted.notes gone narrow _ _) ?_
      intro r t same
      cases same
      exact Run.endsPure.mpr fun _ => rfl
  refine Run.endsMono (Run.endsBoth (saveEnds owned) told) ?_
  intro out t post
  obtain ⟨⟨-, -, outcome⟩, message⟩ := post
  rw [savedByGone rooted bound gone] at outcome
  exact ⟨outcome.1, outcome.2.2.1, outcome.2.2.2, message⟩

end Notebook

end ModalNotes
