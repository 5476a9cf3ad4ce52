import ModalNotes.Proofs.Notebook.Step

/-! Saves that fail. Whatever refuses a save is told in its outcome; the session and the tables are as if
it had not been tried, and so is every save that comes after it. -/
namespace ModalNotes

def LinkDiff.part (d : LinkDiff) : Leg → List Link
  | .update => d.toUpdate
  | .insert => d.toInsert
  | .delete => d.toDelete
  | .note | .commit => []

namespace Database

theorem legOnFails {failing : List Leg} {leg : Leg} {links : List Link} {p : Database → Option Database}
    (fails : failing.contains leg = true) (some' : links ≠ []) (d : Database) :
    legOn failing leg links p d = none := by
  have full : ¬ links.isEmpty = true := by simpa using some'
  rw [legOn, if_neg full, if_pos fails]

theorem persistLegsFails {failing : List Leg} {leg : Leg} {diff : LinkDiff}
    (fails : failing.contains leg = true) (some' : diff.part leg ≠ []) (parent : Int) (d : Database) :
    persistLegs failing parent diff d = none := by
  cases leg with
  | update =>
    have full : diff.toUpdate ≠ [] := some'
    rw [persistLegs, legOnFails fails full, Option.bind_none]
  | insert =>
    have full : diff.toInsert ≠ [] := some'
    exact Option.bind_eq_none_iff.mpr fun d _ => by rw [legOnFails fails full, Option.bind_none]
  | delete =>
    refine Option.bind_eq_none_iff.mpr fun d _ => Option.bind_eq_none_iff.mpr fun d' _ => ?_
    exact legOnFails fails some' d'
  | note => exact absurd rfl some'
  | commit => exact absurd rfl some'

theorem persistLinksFails {failing : List Leg} {diff : LinkDiff}
    (fails : failing.contains .commit = true) (parent : Int) (d : Database) :
    persistLinks failing parent diff d = none :=
  Option.bind_eq_none_iff.mpr fun _ _ => if_pos fails

theorem persistNone {failing : List Leg} {links : LinkStore} {title body : Text} {hasLinks : Bool}
    {d : Database} (h : ∀ parent d, persistLinks failing parent links.classify d = none) :
    persist failing links title body hasLinks d = none :=
  Option.bind_eq_none_iff.mpr fun r _ => by rw [h, Option.map_none]

theorem addNoteTaken {d : Database} {notes : List NoteRow} {n : NoteRow} (stored : d.notes = some notes)
    (member : n ∈ notes) (body : Text) (hasLinks : Bool) :
    (d.addNote n.title body hasLinks).toOption = none := by
  have taken : notes.any (·.title == n.title) = true := List.any_eq_true.mpr ⟨n, member, by simp⟩
  simp only [addNote, needNotes, stored, bind, Except.bind, if_pos taken, Except.toOption]

theorem setNoteTaken {d : Database} {notes : List NoteRow} {n : NoteRow} {id : Int}
    (stored : d.notes = some notes) (member : n ∈ notes) (other : n.id ≠ id) (body : Text)
    (hasLinks : Bool) : (d.setNote id n.title body hasLinks).toOption = none := by
  have taken : notes.any (fun m => m.id != id && m.title == n.title) = true :=
    List.any_eq_true.mpr ⟨n, member, by simpa using other⟩
  simp only [setNote, needNotes, stored, bind, Except.bind, if_pos taken, Except.toOption]

theorem persistNoteTaken {id : Option Int} {d : Database} {notes : List NoteRow} {n : NoteRow}
    (stored : d.notes = some notes) (member : n ∈ notes) (other : id ≠ some n.id) (body : Text)
    (hasLinks : Bool) : persistNote id n.title body hasLinks d = none := by
  cases id with
  | none =>
    simp only [persistNote, sent, List.all_nil, if_true, addNoteTaken stored member, Option.map_none]
  | some id =>
    refine Option.bind_eq_none_iff.mpr fun found _ => ?_
    cases found with
    | none => rfl
    | some note =>
      have differs : n.id ≠ id := fun same => other (congrArg some same.symm)
      dsimp only
      rw [setNoteTaken stored member differs, Option.map_none]

theorem persistNoteGone {id : Int} {d : Database} {notes : List NoteRow}
    (stored : d.notes = some notes) (gone : ∀ n ∈ notes, n.id ≠ id) (title body : Text)
    (hasLinks : Bool) : persistNote (some id) title body hasLinks d = none := by
  have none : notes.find? (·.id == id) = none := by
    simpa [List.find?_eq_none] using gone
  simp only [persistNote, sent, note?, needNotes, stored, bind, Except.bind, none, Except.toOption]
  split <;> rfl

end Database

namespace Notebook

open Session

inductive Refused (d : Desk) : Prop
  | untitled (empty : (Text.strip d.session.title).isEmpty = true)
  | titleTaken {notes : List NoteRow} {n : NoteRow} (stored : d.storage.committed.notes = some notes)
      (member : n ∈ notes) (title : Text.strip d.session.title = n.title)
      (other : d.session.noteId ≠ some n.id)
  | noteGone {notes : List NoteRow} {id : Int} (stored : d.storage.committed.notes = some notes)
      (saved : d.session.noteId = some id) (gone : ∀ n ∈ notes, n.id ≠ id)
  | leg {leg : Leg} (fails : d.storage.failing.contains leg = true)
      (some' : d.session.links.classify.part leg ≠ [])
  | commit (fails : d.storage.failing.contains .commit = true)

theorem savedByRefused {d : Desk} (refused : Refused d) : savedBy d = none := by
  unfold savedBy
  split
  · rfl
  rename_i titled
  cases refused with
  | untitled empty => exact absurd empty titled
  | titleTaken stored member title other =>
    rw [title, Database.persist]
    have other' : d.session.links.parent ≠ some _ := other
    have taken := Database.persistNoteTaken stored member other' d.session.text
      (!d.session.links.live.isEmpty)
    rw [taken, Option.bind_none]
  | noteGone stored saved gone =>
    have parent : d.session.links.parent = some _ := saved
    rw [Database.persist, parent, Database.persistNoteGone stored gone, Option.bind_none]
  | leg fails some' =>
    refine Database.persistNone fun parent d => ?_
    rw [Database.persistLinks, Database.persistLegsFails fails some', Option.bind_none]
  | commit fails => exact Database.persistNone (Database.persistLinksFails fails)

def SavesAlike (d e : Desk) : Prop :=
  save.Ends d fun out t => save.Ends e fun out' u => t.session = u.session ∧
    t.storage.committed = u.storage.committed ∧ out.ok = out'.ok ∧ out.report = out'.report ∧
    (out.ok = true → out = out')

theorem savesAlike {s : Session} (owned : s.links.Owned) {w v : Storage}
    (committed : w.committed = v.committed) (failing : w.failing = v.failing) :
    SavesAlike ⟨s, w⟩ ⟨s, v⟩ := by
  have same : savedBy ⟨s, w⟩ = savedBy ⟨s, v⟩ := by simp only [savedBy, committed, failing]
  refine Run.endsMono (saveEnds (d := ⟨s, w⟩) owned) ?_
  intro out t post
  obtain ⟨-, -, outcome⟩ := post
  refine Run.endsMono (saveEnds (d := ⟨s, v⟩) owned) ?_
  intro out' u post
  obtain ⟨-, -, outcome'⟩ := post
  rw [same] at outcome
  cases saved : savedBy ⟨s, v⟩ with
  | none =>
    rw [saved] at outcome outcome'
    obtain ⟨ok, report, session, tables⟩ := outcome
    obtain ⟨ok', report', session', tables'⟩ := outcome'
    refine ⟨session.trans session'.symm, ?_, ok.trans ok'.symm, report.trans report'.symm, fun yes => ?_⟩
    · exact tables.trans (committed.trans tables'.symm)
    · rw [ok] at yes
      contradiction
  | some r =>
    rw [saved] at outcome outcome'
    obtain ⟨rfl, session, tables⟩ := outcome
    obtain ⟨rfl, session', tables'⟩ := outcome'
    exact ⟨session.trans session'.symm, tables.trans tables'.symm, rfl, rfl, fun _ => rfl⟩

/- A save of any reachable session at any storage gives an outcome. A refused one is not ok, and one that
is not ok leaves the session and the tables as they were, so that a later save at the same tables is the
save that it would have been. -/
theorem failedSaveUndone {s : Session} (opened : Opened s) (steps : List Step) (storage : Storage) :
    save.Ends ⟨s.along steps, storage⟩ fun out later =>
      (Refused ⟨s.along steps, storage⟩ → out.ok = false) ∧
      (out.ok = false →
        later.session = s.along steps ∧ later.storage.committed = storage.committed ∧
        later.storage.failing = storage.failing ∧ later.storage.failure = storage.failure ∧
        ∀ w v : Storage, w.committed = v.committed → w.failing = v.failing →
          SavesAlike ⟨later.session, w⟩ ⟨s.along steps, v⟩) := by
  have owned := (alongSound (openedSound opened) steps).owned
  refine Run.endsMono (saveEnds (d := ⟨s.along steps, storage⟩) owned) ?_
  intro out later post
  obtain ⟨failing, failure, outcome⟩ := post
  cases saved : savedBy ⟨s.along steps, storage⟩ with
  | none =>
    rw [saved] at outcome
    obtain ⟨ok, -, session, tables⟩ := outcome
    refine ⟨fun _ => ok, fun _ => ⟨session, tables, failing, failure, fun w v same fails => ?_⟩⟩
    rw [session]
    exact savesAlike owned same fails
  | some r =>
    rw [saved] at outcome
    obtain ⟨rfl, -, -⟩ := outcome
    refine ⟨fun refused => ?_, fun no => nomatch no⟩
    rw [savedByRefused refused] at saved
    contradiction

/- The first save of a note with a link: the note leg binds store and link to the new id, then the insertion
of the link fails. -/
def linking : List Step := drawing ++ [⟨.link ['q'], {}⟩, ⟨.rename ['n'], {}⟩]

def insertFails : Storage where
  committed := { notes := some [⟨1, ['q'], [], false⟩], links := some [] }
  failing := [.insert]

theorem failedFirstSave : Opened lettered ∧
    save.Ends ⟨lettered.along linking, insertFails⟩ fun out later => out.ok = false ∧
      out.message = "Save failed, links not saved (insert failed)".toList ∧
      later.session = lettered.along linking ∧ later.session.noteId = none ∧
      later.session.links.live.map Link.parent = [none] ∧
      later.storage.committed = insertFails.committed := by
  have drawn : (lettered.along linking).links.classify.part .insert ≠ [] ∧
      (lettered.along linking).noteId = none ∧
      (lettered.along linking).links.live.map Link.parent = [none] ∧
      (save ⟨lettered.along linking, insertFails⟩).result.toOption.map SaveOutcome.message =
        some "Save failed, links not saved (insert failed)".toList := by decide +kernel
  obtain ⟨inserts, unbound, parents, told⟩ := drawn
  obtain ⟨out, result, refused, undone⟩ := failedSaveUndone letteredOpened linking insertFails
  have no := refused (.leg (rfl : insertFails.failing.contains Leg.insert = true) inserts)
  obtain ⟨session, tables, -⟩ := undone no
  rw [result] at told
  refine ⟨letteredOpened, out, result, no, Option.some.inj told, session, ?_, ?_, tables⟩
  · rw [session]
    exact unbound
  · rw [session]
    exact parents

end Notebook

end ModalNotes
