import ModalNotes.Proofs.Link.Store
import ModalNotes.Proofs.Storage.Sync

/-! Saves of a note. A save always gives an outcome. One that is ok has written the note and its links as
`persist` says; one that is not has changed nothing, neither in the session nor in the tables. -/
namespace ModalNotes

namespace LinkStore

theorem bindBack {s : LinkStore} (owned : s.Owned) (id : Option Int) :
    (s.bindParent id).bindParent s.parent = s := by
  obtain ⟨parent, ⟨entries⟩, next⟩ := s
  have same : ∀ e ∈ entries, (e.1, { e.2 with parent }) = e := by
    intro post member
    obtain ⟨k, l⟩ := post
    have own : l.parent = parent := owned k l member
    simp only [Prod.mk.injEq, true_and]
    rw [← own]
  simp only [bindParent, mapLinks, LinkStore.mk.injEq, Table.mk.injEq, List.map_map, true_and, and_true]
  exact (List.map_congr_left same).trans (List.map_id _)

theorem boundOwned {s : LinkStore} (owned : s.Owned) (id : Int) : (Ledger.bound s id).Owned := by
  unfold Ledger.bound
  split
  · intro k l member
    obtain ⟨e, -, same⟩ := List.mem_map.mp member
    cases same
    rfl
  · exact owned

theorem boundKeys (s : LinkStore) (id : Int) : (Ledger.bound s id).links.keys = s.links.keys := by
  unfold Ledger.bound
  split
  · exact Table.keysMap (fun l : Link => { l with parent := some id }) s.links
  · rfl

theorem mirrorsBound {s : LinkStore} {anchors : AnchorTable} (mirrors : Mirrors s.links anchors)
    (id : Int) : Mirrors (Ledger.bound s id).links anchors := by
  unfold Ledger.bound
  split
  · exact mirrorsBind mirrors _
  · exact mirrors

end LinkStore

namespace Notebook

open Ledger

def savedBy (d : Desk) : Option (Int × Database) :=
  if (Text.strip d.session.title).isEmpty then none
  else Database.persist d.storage.failing d.session.links (Text.strip d.session.title) d.session.text
    (!d.session.links.live.isEmpty) d.storage.committed

def savedSession (s : Session) (id : Int) : Session :=
  { s with
    title := Text.strip s.title
    links := (bound s.links id).settle s.links.classify
    savedVersion := s.buffer.version }

def savedOutcome (s : Session) (id : Int) : SaveOutcome where
  ok := true
  message := "Saved ".toList ++ Fault.inQuotes (Text.strip s.title)
  noteId := (savedSession s id).noteId
  report := some (report s.links)

theorem unboundBack {s : Session} {links : LinkStore} (owned : s.links.Owned)
    (unbound : Unbound s.links links) :
    (if ({ s with links } : Session).noteId ≠ s.noteId
      then ({ s with links } : Session).bindNote s.noteId else { s with links }) = s := by
  rcases unbound with rfl | ⟨parent, id, rfl⟩
  · exact if_neg fun differs => differs rfl
  · have back := LinkStore.bindBack owned (some id)
    rw [if_pos]
    · simp only [Session.bindNote, Session.noteId, back]
    · rw [Session.noteId, Session.noteId, parent]
      exact Option.some_ne_none id

theorem trySaveAfter (span : Span) (title : Text) {d : Desk} (owned : d.session.links.Owned) :
    (trySave span title).Ends d fun r t =>
      t.storage.failing = d.storage.failing ∧ t.storage.failure = d.storage.failure ∧
      match Database.persist d.storage.failing d.session.links title d.session.text
          (!d.session.links.live.isEmpty) d.storage.committed with
      | some (id, db) => r = .ok (report d.session.links) ∧
          t.session = { d.session with links := (bound d.session.links id).settle d.session.links.classify } ∧
          t.storage.committed = db
      | none => (∃ failures, r = .error failures) ∧ t.session = d.session ∧
          t.storage.committed = d.storage.committed := by
  unfold trySave
  rw [Run.endsBind, Run.endsGet]
  dsimp only
  rw [Run.endsBind, Run.endsAttempt, Desk.onLedger, Run.afterOn]
  have run := syncAfter title d.session.text (!d.session.links.live.isEmpty)
    { store := d.session.links, world := d.storage }
  refine Run.afterMono run ?_
  intro r t post
  obtain ⟨failing, failure, outcome⟩ := post
  dsimp only at outcome
  cases persisted : Database.persist d.storage.failing d.session.links title d.session.text
      (!d.session.links.live.isEmpty) d.storage.committed with
  | some saved =>
    obtain ⟨id, db⟩ := saved
    rw [persisted] at outcome
    obtain ⟨rfl, store, committed⟩ := outcome
    refine Run.endsPure.mpr ⟨failing, failure, rfl, ?_, committed⟩
    rw [store]
  | none =>
    rw [persisted] at outcome
    obtain ⟨⟨failures, rfl⟩, unbound, committed⟩ := outcome
    have back := unboundBack (s := d.session) owned unbound
    dsimp only
    rw [Run.endsBind, Run.endsLog, Run.endsBind, Run.endsLog, Run.endsBind, Run.endsGet]
    split
    · rename_i rebound
      rw [Run.endsBind, Desk.onSession, Run.endsOn, Run.endsModify, Run.endsPure]
      exact ⟨failing, failure, ⟨failures, rfl⟩, (if_pos rebound).symm.trans back, committed⟩
    · rename_i kept
      rw [Run.endsPure]
      exact ⟨failing, failure, ⟨failures, rfl⟩, (if_neg kept).symm.trans back, committed⟩

theorem saveEnds {d : Desk} (owned : d.session.links.Owned) :
    save.Ends d fun out t =>
      t.storage.failing = d.storage.failing ∧ t.storage.failure = d.storage.failure ∧
      match savedBy d with
      | some (id, db) => out = savedOutcome d.session id ∧
          t.session = savedSession d.session id ∧ t.storage.committed = db
      | none => out.ok = false ∧ out.report = none ∧ t.session = d.session ∧
          t.storage.committed = d.storage.committed := by
  unfold save savedBy
  rw [Run.endsBind, Run.endsGet]
  dsimp only
  split
  · exact Run.endsPure.mpr ⟨rfl, rfl, rfl, rfl, rfl, rfl⟩
  · rw [Run.endsBind, Run.endsSpannedWith]
    refine Run.endsMono (trySaveAfter _ (Text.strip d.session.title) owned) ?_
    intro r t post
    obtain ⟨failing, failure, outcome⟩ := post
    cases persisted : Database.persist d.storage.failing d.session.links
        (Text.strip d.session.title) d.session.text (!d.session.links.live.isEmpty)
        d.storage.committed with
    | some saved =>
      obtain ⟨id, db⟩ := saved
      rw [persisted] at outcome
      obtain ⟨rfl, session, committed⟩ := outcome
      dsimp only
      rw [Run.endsBind, Desk.onSession, Run.endsOn, Run.endsModify, Run.endsBind, Run.endsGet,
        Run.endsPure]
      have saved : ({ t.session with title := Text.strip d.session.title } : Session).markSaved =
          savedSession d.session id := by
        rw [session]
        rfl
      exact ⟨failing, failure, by rw [saved]; rfl, saved, committed⟩
    | none =>
      rw [persisted] at outcome
      obtain ⟨⟨failures, rfl⟩, session, committed⟩ := outcome
      exact Run.endsPure.mpr ⟨failing, failure, rfl, rfl, session, committed⟩

end Notebook

end ModalNotes
