import ModalNotes.Proofs.Notebook.Held
import ModalNotes.Proofs.Storage.Request

/-! Loading a note. From sound tables the session comes back with the note's text and with a link for each
of its rows, all of them saved and none of them moved. -/
namespace ModalNotes

namespace LinkRow

theorem storedSorted {id : Int} {body : Text} {rows : List LinkRow} (stored : Stored id body rows) :
    Stored id body (byAnchor rows) where
  own r member := stored.own r ((byAnchorPerm rows).mem_iff.mp member)
  distinct := ((byAnchorPerm rows).map anchor).nodup_iff.mpr stored.distinct
  spans r member := stored.spans r ((byAnchorPerm rows).mem_iff.mp member)

end LinkRow

namespace LinkStore

theorem numberedSerials (first : Nat) (rows : List LinkRow) :
    ((numbered first rows).map fun e => e.2.serial) = List.range' first rows.length := by
  induction rows generalizing first with
  | nil => rfl
  | cons r rest ih => simp only [numbered, List.map_cons, ih, List.length_cons, List.range'_succ]

theorem numberedBelow {first : Nat} {rows : List LinkRow} {e : Int × Link}
    (entry : e ∈ numbered first rows) : e.2.serial < first + rows.length := by
  have serial := List.mem_map_of_mem (f := fun e : Int × Link => e.2.serial) entry
  rw [numberedSerials, List.mem_range'_1] at serial
  exact serial.2

theorem numberedAnchors (first : Nat) (rows : List LinkRow) :
    ((numbered first rows).map fun e => e.2.anchor) = rows.map LinkRow.anchor := by
  induction rows generalizing first with
  | nil => rfl
  | cons r rest ih => simp only [numbered, List.map_cons, ih, Link.ofRow]

theorem numberedHas {rows : List LinkRow} {r : LinkRow} (member : r ∈ rows) (first : Nat) :
    ∃ serial, (r.anchor, { Link.ofRow r with serial }) ∈ numbered first rows := by
  induction rows generalizing first with
  | nil => contradiction
  | cons head rest ih =>
    rcases List.mem_cons.mp member with rfl | later
    · exact ⟨first, List.mem_cons_self⟩
    · obtain ⟨serial, entry⟩ := ih later (first + 1)
      exact ⟨serial, List.mem_cons_of_mem _ entry⟩

theorem numberedOrdered {rows : List LinkRow} (first : Nat)
    (ascend : rows.Pairwise fun r r' => r.anchor < r'.anchor) :
    Ordered ((numbered first rows).map Prod.snd) where
  ascending := by
    have anchors : ((numbered first rows).map fun e => e.2.anchor).Pairwise (· < ·) := by
      rw [numberedAnchors]
      exact List.pairwise_map.mpr ascend
    exact List.pairwise_map.mpr (List.pairwise_map.mp anchors)
  serials := by
    rw [List.map_map]
    exact (numberedSerials first rows) ▸ List.nodup_range'

theorem numberedSynced {stored rows : List LinkRow} (perm : rows.Perm stored)
    (distinct : (stored.map LinkRow.anchor).Nodup) (first : Nat) :
    Synced stored ((numbered first rows).map Prod.snd) where
  distinct := distinct
  row r member := by
    obtain ⟨serial, entry⟩ := numberedHas (perm.mem_iff.mpr member) first
    exact ⟨_, List.mem_map_of_mem entry, rfl, rfl, rfl, fun _ => rfl⟩
  saved l member _ := by
    obtain ⟨⟨k, _⟩, entry, rfl⟩ := List.mem_map.mp member
    obtain ⟨r, inside, serial, -, rfl⟩ := numberedMem entry
    exact List.mem_map.mpr ⟨r, perm.mem_iff.mp inside, rfl⟩

end LinkStore

namespace Session

theorem heldReopened {d : Database} {note : NoteRow} {id : Int} (found : d.noteOf id = some note)
    (stored : LinkRow.Stored id note.body (d.rowsIn id)) (maxHistory : Int) :
    Held d (reopened id note.title note.body (LinkRow.byAnchor (d.rowsIn id)) maxHistory) := by
  refine ⟨reopenedSound (LinkRow.storedSorted stored) maxHistory,
    LinkStore.numberedOrdered 0 (LinkRow.byAnchorAscends stored.distinct), ?_, ?_,
    LinkStore.numberedSynced (LinkRow.byAnchorPerm _) stored.distinct 0⟩
  · intro l member
    obtain ⟨e, entry, rfl⟩ := List.mem_map.mp member
    have low := LinkStore.numberedBelow entry
    rw [Nat.zero_add] at low
    exact low
  · intro n same
    cases same
    rw [found]
    rfl

def Clean (s : Session) : Prop :=
  ∀ l ∈ s.links.all, l.saved = true ∧ l.updated = false ∧ l.deleted = false ∧
    ∃ a, s.buffer.anchors.get? l.anchor = some a ∧ a.deleted = false ∧ a.geometry = l.geometry

theorem cleanReopened {id : Int} {body : Text} {rows : List LinkRow}
    (stored : LinkRow.Stored id body rows) (title : Text) (maxHistory : Int) :
    (reopened id title body rows maxHistory).Clean := by
  have sound : (reopened id title body rows maxHistory).Sound := reopenedSound stored maxHistory
  intro l member
  obtain ⟨⟨k, _⟩, entry, rfl⟩ := List.mem_map.mp member
  obtain ⟨a, found, gone, same⟩ := sound.mirrors.present k _ entry
  obtain ⟨r, -, serial, rfl, rfl⟩ := LinkStore.numberedMem entry
  exact ⟨rfl, rfl, rfl, a, found, gone.symm, (same gone.symm).symm⟩

theorem rowsReopened {id : Int} (title body : Text) (rows : List LinkRow) (maxHistory : Int) :
    (reopened id title body rows maxHistory).rows = .ok rows := by
  have live : ∀ first, ((LinkStore.numbered first rows).map Prod.snd).filter (!·.deleted) =
      (LinkStore.numbered first rows).map Prod.snd := by
    intro first
    refine List.filter_eq_self.mpr fun l member => ?_
    obtain ⟨⟨k, _⟩, entry, rfl⟩ := List.mem_map.mp member
    obtain ⟨r, -, serial, -, rfl⟩ := LinkStore.numberedMem entry
    rfl
  have back : ∀ (first : Nat) (rows : List LinkRow),
      ((LinkStore.numbered first rows).map Prod.snd).mapM Link.toRow = .ok rows := by
    intro first rows
    induction rows generalizing first with
    | nil => rfl
    | cons r rest ih =>
      rw [LinkStore.numbered, List.map_cons, List.mapM_cons, ih]
      rfl
  exact (congrArg (List.mapM Link.toRow) (live 0)).trans (back 0 rows)

end Session

namespace Notebook

theorem noteAsked {d : Database} (there : d.notes.isSome = true) (id : Int) :
    d.note? id = .ok (d.noteOf id) := by
  obtain ⟨notes, some'⟩ := Option.isSome_iff_exists.mp there
  simp only [Database.note?, Database.needNotes, some', bind, Except.bind, Database.noteOf,
    Option.getD_some]

theorem rowsAsked {d : Database} (there : d.links.isSome = true) (id : Int) :
    d.rowsOf id = .ok (LinkRow.byAnchor (d.rowsIn id)) := by
  obtain ⟨rows, some'⟩ := Option.isSome_iff_exists.mp there
  simp only [Database.rowsOf, Database.needLinks, some', bind, Except.bind, Database.rowsIn,
    Option.getD_some]
  rfl

theorem sentOne {α : Type} (id : Int) (a : α) :
    Database.sent [id] (.ok a : Except Fault α) = if Database.fits id then some a else none := by
  simp [Database.sent, Except.toOption]

theorem noteNeedsTable {d : Database} {id : Int}
    (missing : Statement.noteById.missingTable? d ≠ none) : (d.note? id).toOption = none :=
  Database.notesNeeded (Storage.noteNeeds rfl missing) _

theorem rowsNeedTable {d : Database} {id : Int}
    (missing : Statement.rowsOf.missingTable? d ≠ none) : (d.rowsOf id).toOption = none := by
  rcases Database.missingOf missing with ⟨-, links⟩ | ⟨needs, -⟩
  · exact Database.linksNeeded links _
  · contradiction

theorem noteEnds {w : Storage} (rooted : w.committed.Rooted) {id : Int}
    (narrow : Database.fits id = true) :
    (Storage.note? id).Ends w fun found t => found = w.committed.noteOf id ∧ Storage.Frame w t :=
  Storage.queryEnds (f := (·.note? id)) noteNeedsTable
    (by rw [noteAsked rooted.notes, sentOne, if_pos narrow])

theorem rowsEnds {w : Storage} (rooted : w.committed.Rooted) {id : Int}
    (narrow : Database.fits id = true) :
    (Storage.rowsOf id).Ends w fun rows t =>
      rows = LinkRow.byAnchor (w.committed.rowsIn id) ∧ Storage.Frame w t :=
  Storage.queryEnds (f := (·.rowsOf id)) rowsNeedTable
    (by rw [rowsAsked rooted.links, sentOne, if_pos narrow])

/- What loading comes to, whatever the rows are: nothing where the tables have no such note, and nothing
where two rows have one anchor. -/
theorem loadRuns {w : Storage} (rooted : w.committed.Rooted) (maxHistory id : Int) :
    (load maxHistory id).After w fun r t => Storage.Frame w t ∧
      match if Database.fits id then w.committed.noteOf id else none with
      | none => ∃ fault, r = .error fault
      | some note =>
        if ((w.committed.rowsIn id).map LinkRow.anchor).Nodup then
          r = .ok (Session.reopened id note.title note.body
            (LinkRow.byAnchor (w.committed.rowsIn id)) maxHistory)
        else ∃ anchor, r = .error (.anchorLinked anchor) := by
  unfold load
  cases narrow : Database.fits id with
  | false =>
    rw [Run.afterBind, Storage.note?]
    refine Run.afterMono (Storage.querySent (f := (·.note? id)) noteNeedsTable) ?_
    intro r t post
    obtain ⟨frame, sent⟩ := post
    rw [noteAsked rooted.notes, sentOne, narrow] at sent
    cases r with
    | ok found => contradiction
    | error fault => exact ⟨frame, fault, rfl⟩
  | true =>
    rw [if_pos rfl]
    refine Run.afterBindEnds (Run.endsMono (noteEnds rooted narrow) ?_)
    intro _ t post
    obtain ⟨rfl, frame⟩ := post
    cases given : w.committed.noteOf id with
    | none => exact ⟨frame, _, rfl⟩
    | some note =>
      dsimp only
      rw [Database.noteOfId given]
      have there : t.committed.Rooted := frame.committed ▸ rooted
      refine Run.afterBindEnds (Run.endsMono (rowsEnds there narrow) ?_)
      intro _ u post
      obtain ⟨rfl, frame'⟩ := post
      rw [frame.committed]
      have anchors := (LinkRow.byAnchorPerm (w.committed.rowsIn id)).map LinkRow.anchor
      have own : ∀ r ∈ LinkRow.byAnchor (w.committed.rowsIn id), r.parent = id := fun r member =>
        LinkRow.ofNoteParent ((LinkRow.byAnchorPerm _).mem_iff.mp member)
      split
      · rename_i distinct
        refine Run.afterOfEnds (Run.endsMono
          (Session.reopenRows own (anchors.nodup_iff.mpr distinct) note.title note.body maxHistory) ?_)
        intro s v post
        obtain ⟨rfl, rfl⟩ := post
        exact ⟨frame.trans frame', rfl⟩
      · rename_i twice
        refine Run.afterMono (Session.reopenTwice own (fun distinct => twice (anchors.nodup_iff.mp distinct))
          note.title note.body maxHistory u) ?_
        intro r v post
        obtain ⟨failed, rfl⟩ := post
        exact ⟨frame.trans frame', failed⟩

theorem loadAfter {w : Storage} (sound : w.committed.Sound) (maxHistory id : Int) :
    (load maxHistory id).After w fun r t => Storage.Frame w t ∧
      match if Database.fits id then w.committed.noteOf id else none with
      | none => ∃ fault, r = .error fault
      | some note => r = .ok (Session.reopened id note.title note.body
          (LinkRow.byAnchor (w.committed.rowsIn id)) maxHistory) := by
  refine Run.afterMono (loadRuns sound.rooted maxHistory id) ?_
  intro r t post
  obtain ⟨frame, outcome⟩ := post
  refine ⟨frame, ?_⟩
  cases found : (if Database.fits id then w.committed.noteOf id else none) with
  | none =>
    rw [found] at outcome
    exact outcome
  | some note =>
    rw [found] at outcome
    have given : w.committed.noteOf id = some note := by
      split at found
      · exact found
      · contradiction
    dsimp only at outcome ⊢
    rw [if_pos (sound.stored id note given).distinct] at outcome
    exact outcome

theorem loadEnds {w : Storage} (sound : w.committed.Sound) {id : Int} {note : NoteRow}
    (narrow : Database.fits id = true) (given : w.committed.noteOf id = some note) (maxHistory : Int) :
    (load maxHistory id).Ends w fun s t => s = Session.reopened id note.title note.body
      (LinkRow.byAnchor (w.committed.rowsIn id)) maxHistory ∧ Storage.Frame w t := by
  obtain ⟨frame, outcome⟩ := loadAfter sound maxHistory id
  rw [if_pos narrow, given] at outcome
  exact ⟨_, outcome, rfl, frame⟩

end Notebook

end ModalNotes
