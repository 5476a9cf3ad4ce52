import ModalNotes.Proofs.Notebook.Current
import ModalNotes.Proofs.Notebook.Diary
import ModalNotes.Proofs.Notebook.Identity

/-! What the deletion of a note does to those that lead to it. Their rows go, but the links of open sessions
are still marked as saved and the notes as having links. A later save does not write these links again, so
it is ok although rows are missing; and the mark of such a note is right only after a save without them. -/
namespace ModalNotes

namespace Workspace

/- Deeds that leave a note to the session at the desk: nobody else saves it, and nobody deletes it. -/
def Deed.Spares (desk : Nat) (p : Int) : Deed → Prop
  | .work other _ => other = desk
  | .delete id => id ≠ p
  | .faults _ _ => True
  | .create _ _ _ _ | .load _ _ _ => False

section
variable {w : Workspace} {y : Diary} {desk : Nat} {p : Int}

theorem sparesTurn {deed : Deed} (spares : deed.Spares desk p) {s : Session}
    (here : w.sessions desk = some s) (bound : s.noteId = some p) :
    (y.note w (w.happens deed)).astray desk = y.astray desk ∧
      ∀ note, w.happens deed ≠ .opened desk note := by
  cases deed with
  | create other title text maxHistory => exact spares.elim
  | load other id maxHistory => exact spares.elim
  | work other task =>
    cases spares
    simp only [happens]
    split
    · split
      · simp [Diary.note]
      · simp [Diary.note]
    · simp [Diary.note]
  | delete id =>
    have unlike : ¬ p = id := Ne.symm spares
    simp only [happens]
    split
    · simp [Diary.note, here, bound, unlike]
    · simp [Diary.note]
  | faults failing failure => simp [happens, Diary.note]

theorem sparesThrough (based : w.Based) {deeds : List Deed} (spared : ∀ deed ∈ deeds, deed.Spares desk p)
    {s : Session} (here : w.sessions desk = some s) (bound : s.noteId = some p) :
    (∃ t, (w.through deeds).sessions desk = some t ∧ t.noteId = some p) ∧
      (y.along w deeds).astray desk = y.astray desk := by
  induction deeds generalizing w y s with
  | nil => exact ⟨⟨s, here, bound⟩, rfl⟩
  | cons deed rest ih =>
    have turn := turns based deed
    obtain ⟨same, stays⟩ := sparesTurn (y := y) (spared deed List.mem_cons_self) here bound
    obtain ⟨t, here', bound'⟩ := boundTurn turn stays here bound
    have spared' : ∀ d ∈ rest, d.Spares desk p := fun d member => spared d (List.mem_cons_of_mem deed member)
    obtain ⟨stays', same'⟩ := ih (basedTurn based turn) spared' here' bound' (y := y.note w (w.happens deed))
    exact ⟨stays', same'.trans same⟩

end

structure Left (later : Desk) (lost : List Int) (id : Int) : Prop where
  noteId : later.session.noteId = some id
  rows : (Storage.rowsOf id).Ends later.storage fun rows _ =>
    rows = (later.session.links.live.filter fun l => !LinkStore.isLost lost l).map (Link.rowOf id) ∧
      (later.session.rows = .ok rows ↔ ∀ l ∈ later.session.links.live, l.anchor ∉ lost)

theorem savedLeft {d : Desk} {lost : List Int} {id : Int} {db : Database} {w : Storage}
    (rooted : d.storage.committed.Rooted) (abreast : d.session.Abreast d.storage.committed lost)
    (given : Notebook.savedBy d = some (id, db)) (committed : w.committed = db) :
    Left ⟨Notebook.savedSession d.session id, w⟩ lost id := by
  have saves := savedTables rooted given
  have live : (Notebook.savedSession d.session id).links.live =
      d.session.links.live.map (Link.written id) :=
    LinkStore.writtenLive (Session.linksSaved abreast.tidy saves) fun l member =>
      (LinkStore.liveIff.mp member).2
  have rows : (Notebook.savedSession d.session id).rows =
      .ok ((Notebook.savedSession d.session id).links.live.map (Link.rowOf id)) := by
    rw [Session.rows, LinkStore.rows, live, LinkStore.writtenRows, List.map_map]
    rfl
  have stored : LinkRow.byAnchor (w.committed.rowsIn id) =
      ((Notebook.savedSession d.session id).links.live.filter fun l =>
        !LinkStore.isLost lost l).map (Link.rowOf id) := by
    rw [committed, Session.rowsSorted rooted abreast saves, live, List.filter_map, List.map_map]
    rfl
  refine ⟨Session.noteSaved saves, Run.endsMono (Notebook.rowsEnds ?_ saves.fits) ?_⟩
  · exact committed ▸ saves.rooted rooted
  · intro found t post
    obtain ⟨rfl, -⟩ := post
    refine ⟨stored, ?_⟩
    rw [rows, stored, Except.ok.injEq, eq_comm, LinkStore.rowsAlike]
    simp [LinkStore.isLost]

theorem saveLeft {w : Workspace} {y : Diary} (watched : w.Watched y) {desk : Nat} {s : Session} {p : Int}
    (here : w.sessions desk = some s) (bound : s.noteId = some p) (abreast : y.astray desk = false) :
    Notebook.save.Ends ⟨s, w.storage⟩ fun out later => out.ok = true → Left later (y.lost desk) p := by
  have before := watched.abreast desk s here abreast
  refine Run.endsMono (Notebook.saveEnds (d := ⟨s, w.storage⟩) before.tidy.sound.owned) ?_
  intro out later post ok
  obtain ⟨-, -, outcome⟩ := post
  cases given : Notebook.savedBy ⟨s, w.storage⟩ with
  | none =>
    rw [given, ok] at outcome
    exact absurd outcome.1 (by decide)
  | some r =>
    obtain ⟨id, db⟩ := r
    rw [given] at outcome
    cases (savedTables watched.based.tables given).same p bound
    obtain ⟨rfl, session, committed⟩ := outcome
    obtain ⟨session', storage⟩ := later
    cases session
    exact savedLeft watched.based.tables before given committed

/- From any point at which a session is abreast of its note: it works and saves, and notes are deleted, but
not its own. -/
theorem saveLeaves {storage : Storage} (tables : storage.committed.Sound) (before behind : List Deed)
    {desk : Nat} {s : Session} {p : Int} (here : ((ofStorage storage).through before).sessions desk = some s)
    (bound : s.noteId = some p) (abreast : (Diary.along {} (ofStorage storage) before).astray desk = false)
    (spared : ∀ deed ∈ behind, deed.Spares desk p) :
    ∃ t, ((ofStorage storage).through (before ++ behind)).sessions desk = some t ∧ t.noteId = some p ∧
      Notebook.save.Ends ⟨t, ((ofStorage storage).through (before ++ behind)).storage⟩ fun out later =>
        out.ok = true →
          Left later ((Diary.along {} (ofStorage storage) (before ++ behind)).lost desk) p := by
  have watched := watchedThrough (watchedOfStorage tables) before
  rw [throughAppend, Diary.alongAppend]
  obtain ⟨⟨t, here', bound'⟩, same⟩ := sparesThrough watched.based spared here bound
    (y := Diary.along {} (ofStorage storage) before)
  exact ⟨t, here', bound', saveLeft (watchedThrough watched behind) here' bound' (same.trans abreast)⟩

theorem targetDeletedSaveOk :
    (∃ t, ((ofStorage leading).through [.load 0 1 1, .delete 2]).sessions 0 = some t ∧ t.noteId = some 1 ∧
      Notebook.save.Ends ⟨t, ((ofStorage leading).through [.load 0 1 1, .delete 2]).storage⟩
        fun out later => out.ok = true →
          Left later ((Diary.along {} (ofStorage leading) [.load 0 1 1, .delete 2]).lost 0) 1) ∧
    (Diary.along {} (ofStorage leading) [.load 0 1 1, .delete 2]).lost 0 = [1] ∧
    ((ofStorage leading).through [.load 0 1 1, .delete 2]).happens (.work 0 .save) = .saved 0 1 ∧
    ((ofStorage leading).through [.load 0 1 1, .delete 2, .work 0 .save]).storage.committed.rowsIn 1 = [] := by
  obtain ⟨s, here⟩ : ∃ s, ((ofStorage leading).through [.load 0 1 1]).sessions 0 = some s :=
    Option.isSome_iff_exists.mp (by decide +kernel)
  have bound : (((ofStorage leading).through [.load 0 1 1]).sessions 0).bind Session.noteId = some 1 := by
    decide +kernel
  rw [here] at bound
  have spared : ∀ deed ∈ [Deed.delete 2], deed.Spares 0 1 := by
    intro deed member
    cases List.mem_singleton.mp member
    exact (by decide : (2 : Int) ≠ 1)
  exact ⟨saveLeaves leadingSound [.load 0 1 1] [.delete 2] here bound (by decide +kernel) spared,
    by decide +kernel, by decide +kernel, by decide +kernel⟩

section
variable {w : Workspace} {y : Diary}

structure Flagged (w : Workspace) (y : Diary) : Prop where
  flags : ∀ id n, w.storage.committed.noteOf id = some n → y.crossed id = false →
    (n.hasLinks = true ↔ w.storage.committed.rowsIn id ≠ [] ∨ y.robbed id = true)
  absent : ∀ id, w.storage.committed.noteOf id = none → y.robbed id = false

theorem someApart {α : Type} (p : α → Bool) (l : List α) :
    l ≠ [] ↔ l.filter (fun a => !p a) ≠ [] ∨ l.any p = true := by
  induction l with
  | nil => simp
  | cons a rest ih => cases out : p a <;> simp [out]

theorem flaggedTables {v : Workspace} {y' : Diary} (flagged : w.Flagged y)
    (same : v.storage.committed = w.storage.committed) (crossed : y'.crossed = y.crossed)
    (robbed : y'.robbed = y.robbed) : v.Flagged y' where
  flags := by
    rw [same, crossed, robbed]
    exact flagged.flags
  absent := by
    rw [same, robbed]
    exact flagged.absent

theorem flaggedWent (flagged : w.Flagged y) (rooted : w.storage.committed.Rooted) {v : Workspace}
    (created : w.storage.Created v.storage) : v.Flagged y where
  flags id n found straight := by
    rw [Storage.createdRows created]
    cases was : w.storage.committed.noteOf id with
    | none =>
      simp [Database.noRows rooted was, flagged.absent id was, (Storage.createdNew created was found).2]
    | some m =>
      have same := Storage.createdNote created (congrArg Option.isSome was)
      cases (was.symm.trans (same.symm.trans found))
      exact flagged.flags id n was straight
  absent id gone := by
    cases was : w.storage.committed.noteOf id with
    | none => exact flagged.absent id was
    | some m =>
      have same := Storage.createdNote created (congrArg Option.isSome was)
      rw [gone, was] at same
      contradiction

theorem flaggedSaved (flagged : w.Flagged y) (watched : w.Watched y) {desk : Nat} {s : Session} {id : Int}
    {v : Workspace} (here : w.sessions desk = some s)
    (saves : w.storage.committed.Saves v.storage.committed s.links.parent
      ⟨id, Text.strip s.title, s.text, !s.links.live.isEmpty⟩ s.links.classify) :
    v.Flagged (y.note w (.saved desk id)) where
  flags k n found straight := by
    by_cases mine : k = id
    · cases mine
      simp only [Diary.note, Function.update_self] at straight
      have sorted := Session.rowsSorted watched.based.tables (watched.abreast desk s here straight) saves
      have some' : v.storage.committed.rowsIn id ≠ [] ↔
          s.links.live.filter (fun l => !LinkStore.isLost (y.lost desk) l) ≠ [] := by
        rw [ne_eq, ← List.length_eq_zero_iff, ← (LinkRow.byAnchorPerm _).length_eq, sorted,
          List.length_map, List.length_eq_zero_iff]
      cases saves.writes.found.symm.trans found
      simp only [Diary.note, Function.update_self, here, Option.any_some]
      rw [some', ← someApart]
      simp
    · simp only [Diary.note, Function.update_of_ne mine] at straight ⊢
      rw [saves.rowsOthers mine]
      exact flagged.flags k n ((saves.writes.others k mine).symm.trans found) straight
  absent k gone := by
    have mine : k ≠ id := by
      rintro rfl
      cases saves.writes.found.symm.trans gone
    simp only [Diary.note, Function.update_of_ne mine]
    exact flagged.absent k ((saves.writes.others k mine).symm.trans gone)

theorem flaggedDeleted (flagged : w.Flagged y) (rooted : w.storage.committed.Rooted) {id : Int}
    {v : Workspace} (deletes : w.storage.committed.Deletes v.storage.committed id) :
    v.Flagged (y.note w (.deleted id)) where
  flags k n found straight := by
    have other : k ≠ id := by
      rintro rfl
      cases deletes.gone.symm.trans found
    simp only [Diary.note, Function.update_of_ne other] at straight ⊢
    rw [deletes.others other] at found
    rw [flagged.flags k n found straight, someApart (·.linked == id), deletes.rows other,
      Bool.or_eq_true, or_assoc, or_comm (a := y.robbed k = true)]
    rfl
  absent k gone := by
    by_cases mine : k = id
    · simp only [Diary.note, mine, Function.update_self]
    · rw [deletes.others mine] at gone
      simp only [Diary.note, Function.update_of_ne mine, flagged.absent k gone,
        Database.noRows rooted gone]
      rfl

theorem flaggedTurn {later : Workspace} {h : Happening} (flagged : w.Flagged y) (watched : w.Watched y)
    (turn : w.Turn h later) : later.Flagged (y.note w h) := by
  have rooted := watched.based.tables
  cases turn with
  | still same => exact flaggedTables flagged same rfl rfl
  | created desk title text maxHistory => exact flaggedTables flagged rfl rfl rfl
  | loaded desk maxHistory same found narrow => exact flaggedTables flagged same rfl rfl
  | went here note owned served created => exact flaggedWent flagged rooted created
  | saved here saves => exact flaggedSaved flagged watched here saves
  | deleted deletes => exact flaggedDeleted flagged rooted deletes

theorem flaggedThrough (flagged : w.Flagged y) (watched : w.Watched y) (deeds : List Deed) :
    (w.through deeds).Flagged (y.along w deeds) := by
  induction deeds generalizing w y with
  | nil => exact flagged
  | cons deed rest ih =>
    have turn := turns watched.based deed
    exact ih (flaggedTurn flagged watched turn) (watchedTurn watched turn)

theorem nothingLost {deeds : List Deed} (kept : ∀ deed ∈ deeds, ∀ id, deed ≠ .delete id)
    (lost : ∀ desk, y.lost desk = []) (robbed : ∀ id, y.robbed id = false) :
    (∀ desk, (y.along w deeds).lost desk = []) ∧ ∀ id, (y.along w deeds).robbed id = false := by
  induction deeds generalizing w y with
  | nil => exact ⟨lost, robbed⟩
  | cons deed rest ih =>
    have kept' : ∀ d ∈ rest, ∀ id, d ≠ .delete id :=
      fun d member => kept d (List.mem_cons_of_mem deed member)
    cases happens : w.happens deed with
    | nothing =>
      rw [Diary.along, happens]
      exact ih kept' lost robbed
    | opened desk note =>
      rw [Diary.along, happens]
      refine ih kept' (fun other => ?_) robbed
      by_cases mine : other = desk
      · rw [mine]
        exact Function.update_self ..
      · exact (Function.update_of_ne mine ..).trans (lost other)
    | saved desk id =>
      rw [Diary.along, happens]
      refine ih kept' lost fun other => ?_
      by_cases mine : other = id
      · rw [mine]
        refine (Function.update_self ..).trans ?_
        rw [lost desk]
        cases w.sessions desk <;> simp [LinkStore.isLost]
      · exact (Function.update_of_ne mine ..).trans (robbed other)
    | deleted id => exact absurd (deletedBy happens) (kept deed List.mem_cons_self id)

end

/- From tables whose marks are right, such as empty ones: the mark of a note that is not crossed says whether
it has rows, or was robbed of them. -/
theorem flagsTell {storage : Storage} (tables : storage.committed.Sound)
    (right : ∀ id n, storage.committed.noteOf id = some n →
      (n.hasLinks = true ↔ storage.committed.rowsIn id ≠ [])) (deeds : List Deed) {id : Int}
    {note : NoteRow} (found : ((ofStorage storage).through deeds).storage.committed.noteOf id = some note) :
    ((Diary.along {} (ofStorage storage) deeds).crossed id = false →
      (note.hasLinks = true ↔ ((ofStorage storage).through deeds).storage.committed.rowsIn id ≠ [] ∨
        (Diary.along {} (ofStorage storage) deeds).robbed id = true)) ∧
    ((ofStorage storage).KeptApart deeds → (Diary.along {} (ofStorage storage) deeds).crossed id = false) ∧
    ((ofStorage storage).KeptApart deeds → (∀ deed ∈ deeds, ∀ n, deed ≠ .delete n) →
      (note.hasLinks = true ↔ ((ofStorage storage).through deeds).storage.committed.rowsIn id ≠ [])) := by
  have flagged : (ofStorage storage).Flagged {} := by
    refine ⟨fun id n found _ => (right id n found).trans ?_, fun _ _ => rfl⟩
    simp only [ofStorage, Bool.false_eq_true, or_false]
  have watched := watchedOfStorage tables
  have flags := (flaggedThrough flagged watched deeds).flags id note found
  have straight : (ofStorage storage).KeptApart deeds →
      (Diary.along {} (ofStorage storage) deeds).crossed id = false :=
    fun apart => (straightThrough (straightOfStorage storage) watched apart).crossed id
  refine ⟨flags, straight, fun apart kept => (flags (straight apart)).trans ?_⟩
  obtain ⟨-, robbed⟩ := nothingLost (w := ofStorage storage) (y := {}) kept (fun _ => rfl) fun _ => rfl
  rw [robbed id, Bool.false_eq_true, or_false]

theorem targetDeletedMark :
    (∃ note, ((ofStorage leading).through [.delete 2]).storage.committed.noteOf 1 = some note ∧
      note.hasLinks = true ∧
      (note.hasLinks = true ↔ ((ofStorage leading).through [.delete 2]).storage.committed.rowsIn 1 ≠ [] ∨
        (Diary.along {} (ofStorage leading) [.delete 2]).robbed 1 = true)) ∧
    ((ofStorage leading).through [.delete 2]).storage.committed.rowsIn 1 = [] ∧
    ((ofStorage leading).through [.delete 2, .load 0 1 1, .work 0 .save]).storage.committed.noteOf 1 =
      some ⟨1, ['a'], ['x'], false⟩ := by
  have right : ∀ id n, leading.committed.noteOf id = some n →
      (n.hasLinks = true ↔ leading.committed.rowsIn id ≠ []) := by
    intro id n found
    rcases leadingNotes found with ⟨rfl, rfl⟩ | ⟨rfl, rfl⟩ <;> decide
  have found : ((ofStorage leading).through [.delete 2]).storage.committed.noteOf 1 =
      some ⟨1, ['a'], ['x'], true⟩ := by decide +kernel
  exact ⟨⟨_, found, rfl, (flagsTell leadingSound right [.delete 2] found).1 (by decide +kernel)⟩,
    by decide +kernel, by decide +kernel⟩

end Workspace

end ModalNotes
