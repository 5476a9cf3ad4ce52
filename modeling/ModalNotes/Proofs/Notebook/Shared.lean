import ModalNotes.Proofs.Notebook.Diary

/-! Notes that several sessions have open at once. A note that is not crossed can always be opened, and its
rows lie in its text. A note that is crossed can be opened unless two of its rows have one anchor, which
happens when two sessions give the same id to anchors of their own. -/
namespace ModalNotes.Workspace

structure Opens (w : Workspace) (id : Int) (note : NoteRow) : Prop where
  stored : LinkRow.Stored id note.body (w.storage.committed.rowsIn id)
  loaded : ∀ maxHistory, (Notebook.load maxHistory id).Ends w.storage fun s _ =>
    s.noteId = some id ∧ s.title = note.title ∧ s.text = note.body ∧
      s.rows = .ok (LinkRow.byAnchor (w.storage.committed.rowsIn id)) ∧ s.Clean

section
variable {w : Workspace} {id : Int} {note : NoteRow}

theorem loadedIff (rooted : w.storage.committed.Rooted) (narrow : Database.fits id = true)
    (found : w.storage.committed.noteOf id = some note) (maxHistory : Int) :
    (∃ s, (Notebook.load maxHistory id w.storage).result = .ok s) ↔
      ((w.storage.committed.rowsIn id).map LinkRow.anchor).Nodup := by
  obtain ⟨-, outcome⟩ := Notebook.loadRuns rooted maxHistory id
  rw [if_pos narrow, found] at outcome
  dsimp only at outcome
  split at outcome
  · rename_i distinct
    exact ⟨fun _ => distinct, fun _ => ⟨_, outcome⟩⟩
  · rename_i twice
    obtain ⟨anchor, failed⟩ := outcome
    refine ⟨fun post => ?_, fun distinct => absurd distinct twice⟩
    obtain ⟨s, ok⟩ := post
    cases failed.symm.trans ok

theorem opensStored (rooted : w.storage.committed.Rooted) (narrow : Database.fits id = true)
    (found : w.storage.committed.noteOf id = some note)
    (stored : LinkRow.Stored id note.body (w.storage.committed.rowsIn id)) : w.Opens id note where
  stored := stored
  loaded maxHistory := by
    obtain ⟨-, outcome⟩ := Notebook.loadRuns rooted maxHistory id
    rw [if_pos narrow, found] at outcome
    dsimp only at outcome
    rw [if_pos stored.distinct] at outcome
    exact ⟨_, outcome, rfl, rfl, Text.unlines_lines _, Session.rowsReopened _ _ _ _,
      Session.cleanReopened (LinkRow.storedSorted stored) _ _⟩

end

theorem sharedNotesOpen {storage : Storage} (tables : storage.committed.Sound) (deeds : List Deed)
    {id : Int} {note : NoteRow}
    (found : ((ofStorage storage).through deeds).storage.committed.noteOf id = some note)
    (narrow : Database.fits id = true) :
    ((Diary.along {} (ofStorage storage) deeds).crossed id = false →
      ((ofStorage storage).through deeds).Opens id note) ∧
    ∀ maxHistory,
      (∃ s, (Notebook.load maxHistory id ((ofStorage storage).through deeds).storage).result = .ok s) ↔
        ((((ofStorage storage).through deeds).storage.committed.rowsIn id).map LinkRow.anchor).Nodup := by
  have watched := watchedThrough (watchedOfStorage tables) deeds
  have rooted := watched.based.tables
  exact ⟨fun straight => opensStored rooted narrow found (watched.stored id note found straight),
    loadedIff rooted narrow found⟩

def drawn (desk : Nat) : List Deed := [
  .work desk (.input (.key ['v'] [])), .work desk (.input (.key ['l'] ["ctrl".toList])),
  .work desk (.link ['b'])]

/- A session draws a link and saves; a second one loads the note, draws a link beside the first, and saves too. -/
def savedInTurn : List Deed :=
  .create 0 ['a'] ['x', 'y'] 100 :: drawn 0 ++ [.work 0 .save, .load 1 2 100, .work 1 (.input (.key ['l'] []))] ++
    drawn 1 ++ [.work 1 .save]

/- The first session then draws a link of its own under the id that the second one has used. -/
def drawnTwice : List Deed :=
  savedInTurn ++ .work 0 (.input (.key ['l'] [])) :: drawn 0 ++ [.work 0 .save]

/- The first session crosses the note by saving once more. The note is lost only if it has drawn a link by then. -/
theorem savedInTurnOpens :
    (∃ note, ((ofStorage {}).through savedInTurn).Opens 2 note ∧
      ((ofStorage {}).through savedInTurn).storage.committed.rowsIn 2 =
        [⟨2, 1, 0, 0, 1, 1⟩, ⟨2, 2, 0, 1, 2, 1⟩]) ∧
    ((Diary.along {} (ofStorage {}) (savedInTurn ++ [.work 0 .save])).crossed 2 = true ∧
      ∃ s, (Notebook.load 100 2
        ((ofStorage {}).through (savedInTurn ++ [.work 0 .save])).storage).result = .ok s) ∧
    ¬ ∃ s, (Notebook.load 100 2 ((ofStorage {}).through drawnTwice).storage).result = .ok s := by
  have tables : ({} : Storage).committed.Sound := Database.soundEmpty
  obtain ⟨found, rows, straight, found', anchors, crossed, found'', anchors'⟩ :
      ((ofStorage {}).through savedInTurn).storage.committed.noteOf 2 = some ⟨2, ['a'], ['x', 'y'], true⟩ ∧
      ((ofStorage {}).through savedInTurn).storage.committed.rowsIn 2 =
        [⟨2, 1, 0, 0, 1, 1⟩, ⟨2, 2, 0, 1, 2, 1⟩] ∧
      (Diary.along {} (ofStorage {}) savedInTurn).crossed 2 = false ∧
      ((ofStorage {}).through (savedInTurn ++ [.work 0 .save])).storage.committed.noteOf 2 =
        some ⟨2, ['a'], ['x', 'y'], true⟩ ∧
      (((ofStorage {}).through (savedInTurn ++ [.work 0 .save])).storage.committed.rowsIn 2).map
        LinkRow.anchor = [1, 2] ∧
      (Diary.along {} (ofStorage {}) (savedInTurn ++ [.work 0 .save])).crossed 2 = true ∧
      ((ofStorage {}).through drawnTwice).storage.committed.noteOf 2 = some ⟨2, ['a'], ['x', 'y'], true⟩ ∧
      (((ofStorage {}).through drawnTwice).storage.committed.rowsIn 2).map LinkRow.anchor = [1, 2, 2] := by
    decide +kernel
  have opens := (sharedNotesOpen tables savedInTurn found (by decide)).1 straight
  refine ⟨⟨_, opens, rows⟩, ⟨crossed, ?_⟩, fun loads => ?_⟩
  · refine ((sharedNotesOpen tables _ found' (by decide)).2 100).mpr ?_
    rw [anchors]
    decide
  · have distinct := ((sharedNotesOpen tables drawnTwice found'' (by decide)).2 100).mp loads
    rw [anchors'] at distinct
    exact absurd distinct (by decide)

end ModalNotes.Workspace
