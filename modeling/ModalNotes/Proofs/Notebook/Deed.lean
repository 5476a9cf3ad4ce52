import ModalNotes.Proofs.Notebook.Workspace
import ModalNotes.Proofs.Session.Bound
import ModalNotes.Proofs.Storage.Delete

/-! Many sessions on one storage with nothing to keep them apart. Several may be open on one note, and notes
are deleted while sessions have them open. What a deed comes to is told by its outcome: a session is opened,
a save goes through, a note is deleted, or nothing of that kind. -/
namespace ModalNotes

namespace Notebook

open Session

inductive Goes (d : Desk) (task : Task) (t : Desk) : Prop
  | on (unsaved : task = .save → savedBy d = none) (note : t.session.noteId = d.session.noteId)
      (owned : t.session.links.Owned) (served : d.session.Sound → Served d.session t.session)
      (storage : Storage.Created d.storage t.storage)
  | saved (saving : task = .save) {id : Int} {db : Database} (given : savedBy d = some (id, db))
      (session : t.session = savedSession d.session id) (storage : t.storage.committed = db)

theorem linkGoes {d : Desk} (owned : d.session.links.Owned) (title : Text) :
    Goes d (.link title) ((Task.link title).run d).state := by
  have run : ((Task.link title).run d).state = (linkTo title d).state := Run.ignoredState _ d
  have served : d.session.Sound → Served d.session (linkTo title d).state.session :=
    fun sound => (linkToAfter sound title).1
  obtain ⟨created, ⟨same, -⟩ | ⟨target, attached, -⟩⟩ := linkToRuns title d
  · exact run ▸ .on (fun saving => nomatch saving) (congrArg noteId same)
      (by rw [same]; exact owned) served created
  · obtain ⟨note, owned'⟩ := attachBound owned target
    exact run ▸ .on (fun saving => nomatch saving) ((congrArg noteId attached).trans note)
      (by rw [attached]; exact owned') served created

theorem saveGoes {d : Desk} (owned : d.session.links.Owned) : Goes d .save (Task.save.run d).state := by
  have run : (Task.save.run d).state = (save d).state := Run.ignoredState save d
  obtain ⟨out, -, failing, failure, outcome⟩ := saveEnds owned
  cases given : savedBy d with
  | none =>
    rw [given] at outcome
    obtain ⟨-, -, session, committed⟩ := outcome
    refine run ▸ .on (fun _ => given) (congrArg noteId session) (by rw [session]; exact owned) ?_
      ⟨failing, failure, .inl committed⟩
    intro sound
    rw [session]
    exact ⟨sound, extendsRefl _, .inl (.inl rfl)⟩
  | some r =>
    rw [given] at outcome
    exact run ▸ .saved rfl given outcome.2.1 outcome.2.2

theorem taskGoes {d : Desk} (owned : d.session.links.Owned) (task : Task) :
    Goes d task (task.run d).state := by
  cases task with
  | input i =>
    obtain ⟨note, owned'⟩ := inputBound owned i
    exact .on (fun saving => nomatch saving) note owned' (fun sound => inputServed sound i)
      (createdRefl _)
  | rename title =>
    exact .on (fun saving => nomatch saving) rfl owned (fun sound => renamedServed sound title)
      (createdRefl _)
  | link title => exact linkGoes owned title
  | save => exact saveGoes owned

def savedNote (d : Desk) : Option Int :=
  match (save d).result with
  | .ok out => if out.ok then out.noteId else none
  | .error _ => none

theorem savedNoteBy {d : Desk} (rooted : d.storage.committed.Rooted) (owned : d.session.links.Owned) :
    savedNote d = (savedBy d).map Prod.fst := by
  obtain ⟨out, result, -, -, outcome⟩ := saveEnds owned
  rw [savedNote, result]
  cases given : savedBy d with
  | none =>
    rw [given] at outcome
    simp [outcome.1]
  | some r =>
    obtain ⟨id, db⟩ := r
    rw [given] at outcome
    rw [outcome.1]
    exact Session.noteSaved (Workspace.savedTables rooted given)

end Notebook

namespace Workspace

inductive Deed
  | create (desk : Nat) (title text : Text) (maxHistory : Int)
  | load (desk : Nat) (id maxHistory : Int)
  | work (desk : Nat) (task : Notebook.Task)
  | delete (id : Int)
  | faults (failing : List Leg) (failure : Text)
  deriving DecidableEq, Repr

/- Opening a note leaves the other sessions of it where they are. -/
def advance (w : Workspace) : Deed → Workspace
  | .create desk title text maxHistory => w.step (.create desk title text maxHistory)
  | .load desk id maxHistory =>
    let o := Notebook.load maxHistory id w.storage
    let w := { w with storage := o.state }
    match o.result with
    | .ok s => w.seat desk s
    | .error _ => w
  | .work desk task => w.step (.work desk task)
  | .delete id => { w with storage := (Notebook.delete id w.storage).state }
  | .faults failing failure => w.step (.faults failing failure)

def through (w : Workspace) (deeds : List Deed) : Workspace := deeds.foldl advance w

theorem throughAppend (w : Workspace) (before behind : List Deed) :
    w.through (before ++ behind) = (w.through before).through behind := List.foldl_append

inductive Happening
  | nothing
  | opened (desk : Nat) (note : Option Int)
  | saved (desk : Nat) (id : Int)
  | deleted (id : Int)
  deriving DecidableEq, Repr

def happens (w : Workspace) : Deed → Happening
  | .create desk _ _ _ => .opened desk none
  | .load desk id maxHistory =>
    match (Notebook.load maxHistory id w.storage).result with
    | .ok _ => .opened desk (some id)
    | .error _ => .nothing
  | .work desk task =>
    if task = .save then
      match (w.sessions desk).bind fun s => Notebook.savedNote ⟨s, w.storage⟩ with
      | some id => .saved desk id
      | none => .nothing
    else .nothing
  | .delete id =>
    match (Notebook.delete id w.storage).result with
    | .ok _ => .deleted id
    | .error _ => .nothing
  | .faults _ _ => .nothing

structure Based (w : Workspace) : Prop where
  tables : w.storage.committed.Rooted
  owned : ∀ desk s, w.sessions desk = some s → s.links.Owned
  narrow : ∀ desk s id, w.sessions desk = some s → s.noteId = some id → Database.fits id = true

inductive Turn (w : Workspace) : Happening → Workspace → Prop
  | still {storage : Storage} (same : storage.committed = w.storage.committed) :
      Turn w .nothing { w with storage }
  | created (desk : Nat) (title text : Text) (maxHistory : Int) :
      Turn w (.opened desk none) (w.seat desk
        (Session.ofBuffer Keymap.standard.state (Buffer.ofText text maxHistory) title {}))
  | loaded (desk : Nat) {id : Int} {note : NoteRow} (maxHistory : Int) {storage : Storage}
      (same : storage.committed = w.storage.committed) (found : w.storage.committed.noteOf id = some note)
      (narrow : Database.fits id = true) :
      Turn w (.opened desk (some id)) ({ w with storage }.seat desk (Session.reopened id note.title
        note.body (LinkRow.byAnchor (w.storage.committed.rowsIn id)) maxHistory))
  | went {desk : Nat} {s t : Session} {storage : Storage} (here : w.sessions desk = some s)
      (note : t.noteId = s.noteId) (owned : t.links.Owned) (served : s.Sound → s.Served t)
      (created : w.storage.Created storage) : Turn w .nothing ({ w with storage }.seat desk t)
  | saved {desk : Nat} {s : Session} {id : Int} {storage : Storage} (here : w.sessions desk = some s)
      (saves : w.storage.committed.Saves storage.committed s.links.parent
        ⟨id, Text.strip s.title, s.text, !s.links.live.isEmpty⟩ s.links.classify) :
      Turn w (.saved desk id) ({ w with storage }.seat desk (Notebook.savedSession s id))
  | deleted {id : Int} {storage : Storage} (deletes : w.storage.committed.Deletes storage.committed id) :
      Turn w (.deleted id) { w with storage }

theorem loadTurn {w : Workspace} (rooted : w.storage.committed.Rooted) (desk : Nat) (id maxHistory : Int) :
    w.Turn (w.happens (.load desk id maxHistory)) (w.advance (.load desk id maxHistory)) := by
  obtain ⟨frame, outcome⟩ := Notebook.loadRuns rooted maxHistory id
  cases found : (if Database.fits id then w.storage.committed.noteOf id else none) with
  | none =>
    rw [found] at outcome
    obtain ⟨fault, failed⟩ := outcome
    simp only [happens, advance, failed]
    exact .still frame.committed
  | some note =>
    have given : Database.fits id = true ∧ w.storage.committed.noteOf id = some note := by
      split at found
      · rename_i narrow
        exact ⟨narrow, found⟩
      · contradiction
    rw [found] at outcome
    dsimp only at outcome
    split at outcome
    · simp only [happens, advance, outcome]
      exact .loaded desk maxHistory frame.committed given.2 given.1
    · obtain ⟨anchor, failed⟩ := outcome
      simp only [happens, advance, failed]
      exact .still frame.committed

theorem workTurn {w : Workspace} (based : w.Based) (desk : Nat) (task : Notebook.Task) :
    w.Turn (w.happens (.work desk task)) (w.advance (.work desk task)) := by
  cases here : w.sessions desk with
  | none =>
    simp only [happens, advance, step, here, Option.bind_none, ite_self]
    exact .still rfl
  | some s =>
    have owned := based.owned desk s here
    have note := Notebook.savedNoteBy (d := ⟨s, w.storage⟩) based.tables owned
    simp only [happens, advance, step, here, Option.bind_some, note]
    cases Notebook.taskGoes (d := ⟨s, w.storage⟩) owned task with
    | on unsaved note owned' served created =>
      by_cases saving : task = .save
      · rw [if_pos saving, unsaved saving]
        exact .went here note owned' served created
      · rw [if_neg saving]
        exact .went here note owned' served created
    | saved saving given session committed =>
      have saves := savedTables (d := ⟨s, w.storage⟩) based.tables given
      rw [← committed] at saves
      rw [if_pos saving, given, session]
      exact .saved here saves

theorem deleteTurn {w : Workspace} (rooted : w.storage.committed.Rooted) (id : Int) :
    w.Turn (w.happens (.delete id)) (w.advance (.delete id)) := by
  obtain ⟨-, -, outcome⟩ := Notebook.deleteAfter rooted id
  simp only [happens, advance]
  cases result : (Notebook.delete id w.storage).result with
  | error fault =>
    rw [result] at outcome
    exact .still outcome
  | ok found =>
    rw [result] at outcome
    exact .deleted outcome.2

theorem turns {w : Workspace} (based : w.Based) (deed : Deed) : w.Turn (w.happens deed) (w.advance deed) := by
  cases deed with
  | create desk title text maxHistory => exact .created desk title text maxHistory
  | load desk id maxHistory => exact loadTurn based.tables desk id maxHistory
  | work desk task => exact workTurn based desk task
  | delete id => exact deleteTurn based.tables id
  | faults failing failure => exact .still rfl

theorem reopenedOwned {id : Int} {title body : Text} {rows : List LinkRow}
    (own : ∀ r ∈ rows, r.parent = id) (maxHistory : Int) :
    (Session.reopened id title body rows maxHistory).links.Owned := by
  intro k l member
  obtain ⟨r, inside, serial, -, rfl⟩ := LinkStore.numberedMem member
  exact congrArg some (own r inside)

theorem basedTurn {w later : Workspace} {h : Happening} (based : w.Based) (turn : w.Turn h later) :
    later.Based := by
  have seated : ∀ {storage : Storage} {desk : Nat} {s : Session}, storage.committed.Rooted →
      s.links.Owned → (∀ id, s.noteId = some id → Database.fits id = true) →
        ({ w with storage }.seat desk s).Based := by
    intro storage desk s rooted owned narrow
    refine ⟨rooted, fun other t there => ?_, fun other t id there bound => ?_⟩
    · rcases seatCases there with ⟨-, rfl⟩ | ⟨-, was⟩
      · exact owned
      · exact based.owned other t was
    · rcases seatCases there with ⟨-, rfl⟩ | ⟨-, was⟩
      · exact narrow id bound
      · exact based.narrow other t id was bound
  cases turn with
  | still same => exact ⟨same ▸ based.tables, based.owned, based.narrow⟩
  | created desk title text maxHistory =>
    exact seated based.tables (fun _ _ member => absurd member List.not_mem_nil) fun _ none =>
      by contradiction
  | @loaded desk id note maxHistory storage same found narrow =>
    refine seated (same ▸ based.tables) (reopenedOwned (fun r member => ?_) maxHistory) fun n bound => ?_
    · exact LinkRow.ofNoteParent ((LinkRow.byAnchorPerm _).mem_iff.mp member)
    · cases bound
      exact narrow
  | @went desk s t storage here note owned served created =>
    exact seated (Storage.createdRooted based.tables created) owned fun id bound =>
      based.narrow desk s id here (note ▸ bound)
  | @saved desk s id storage here saves =>
    have owned := LinkStore.settleOwned (LinkStore.boundOwned (based.owned desk s here) id) s.links.classify
    refine seated (saves.rooted based.tables) owned fun n bound => ?_
    cases (Session.noteSaved saves).symm.trans bound
    exact saves.fits
  | deleted deletes => exact ⟨deletes.rooted based.tables, based.owned, based.narrow⟩

theorem basedOfStorage {storage : Storage} (rooted : storage.committed.Rooted) : (ofStorage storage).Based :=
  ⟨rooted, fun _ _ none => by contradiction, fun _ _ _ none => by contradiction⟩

theorem basedThrough {w : Workspace} (based : w.Based) (deeds : List Deed) : (w.through deeds).Based := by
  induction deeds generalizing w with
  | nil => exact based
  | cons deed rest ih => exact ih (basedTurn based (turns based deed))

end Workspace

end ModalNotes
