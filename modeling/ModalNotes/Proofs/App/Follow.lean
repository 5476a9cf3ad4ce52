import ModalNotes.Proofs.App.Kept

/-! Following links, and going back. A session that is left is saved if its text has changed, and loading its
note gives that text. Its title and its links come back with it if they went into that save, or were in the
tables already. -/
namespace ModalNotes.App

open Notebook (savedBy savedSession)

def leftBy (w : Storage) (s : Session) : Option Session :=
  if s.isDirty then (savedBy ⟨s, w⟩).map fun (id, _) => savedSession s id else some s

theorem leftClean {w : Storage} {s : Session} (clean : s.isDirty = false) : leftBy w s = some s := by
  rw [leftBy, clean]
  rfl

structure Ready (a : App) (s left : Session) (b : App) : Prop where
  kept : Kept b
  session : b.session = some left
  clean : left.isDirty = false
  text : left.text = s.text
  title : Text.strip left.title = Text.strip s.title
  marks : left.marks = s.marks
  settled : left.Settled b.storage.committed ↔ s.isDirty = true ∨ s.Settled a.storage.committed

theorem readySaved {a : App} (kept : Kept a) {s : Session} (opened : a.session = some s)
    (dirty : s.isDirty = true) : (onDesk Notebook.save).Ends a fun out b =>
      match leftBy a.storage s with
      | none => out.ok = false ∧ Kept b ∧ b.session = some s
      | some left => out.ok = true ∧ Ready a s left b := by
  have current := kept.current s opened
  have kept' : Kept (onDesk Notebook.save a).state := keptDesk kept opened .save (Run.ignoredState _ _)
  obtain ⟨out, result, -, -, outcome⟩ := Notebook.saveEnds (d := ⟨s, a.storage⟩) current.held.sound.owned
  unfold Run.Ends
  rw [deskAt Notebook.save opened] at kept' ⊢
  refine ⟨out, result, ?_⟩
  rw [leftBy, if_pos dirty]
  cases given : savedBy ⟨s, a.storage⟩ with
  | none =>
    rw [given] at outcome
    exact ⟨outcome.1, kept', congrArg some outcome.2.2.1⟩
  | some r =>
    obtain ⟨id, db⟩ := r
    rw [given] at outcome
    obtain ⟨rfl, session, committed⟩ := outcome
    have saves := Workspace.savedTables kept.tables.rooted given
    refine ⟨rfl, kept', congrArg some session, Session.cleanIff.mpr rfl, rfl, Text.stripStrip s.title,
      Session.savedMarks current.held saves, fun _ => .inl dirty, fun _ => ?_⟩
    have settled := Session.savedSettled current.held saves
    rw [← committed] at settled
    exact settled

theorem readyStill {a : App} (kept : Kept a) {s : Session} (opened : a.session = some s)
    (clean : s.isDirty = false) : Ready a s s a := by
  refine ⟨kept, opened, clean, rfl, rfl, rfl, .inr, ?_⟩
  rintro (dirty | settled)
  · rw [clean] at dirty
    contradiction
  · exact settled

structure Arrives (left : Session) (id : Int) (b c : App) : Prop where
  kept : Kept c
  committed : c.storage.committed = b.storage.committed
  session : c.session = some left ∨ ∃ t, c.session = some t ∧ t.noteId = some id

def opening (maxHistory id : Int) (remember : Bool) : Run App Unit := do
  match ← Run.attempt (onStorage (Notebook.load maxHistory id)) with
  | .error fault =>
    if isStorageFault fault then setStatus fault.message else Run.fail fault
  | .ok session =>
    let left := (← Run.get).current.noteId
    if remember then
      Run.modify fun a => { a with trail := left.toList ++ a.trail }
    host.attach session
    refreshTitle

theorem openArrives {b : App} (kept : Kept b) {left : Session} (opened : b.session = some left)
    (maxHistory id : Int) (remember : Bool) :
    (opening maxHistory id remember).After b fun _ c => Arrives left id b c := by
  unfold opening
  refine Run.afterBindEnds (Run.endsAttempt.mpr (Run.afterMono (loadKept kept maxHistory id) ?_))
  rintro r c ⟨kept', session, committed, loaded⟩
  have stays : Arrives left id b c := ⟨kept', committed, .inl (session.trans opened)⟩
  cases r with
  | error fault =>
    dsimp only
    split
    · exact ⟨keptCore kept' rfl, committed, stays.session⟩
    · exact stays
  | ok t =>
    obtain ⟨current, noteId⟩ := loaded t rfl
    have shown : ∀ e : App, e.core = c.core → Run.After (do host.attach t; refreshTitle) e fun _ f =>
        Arrives left id b f := by
      intro e same
      have done := coreShown t e
      have storage : e.storage = c.storage := congrArg (·.2.1) same
      have storage' : _ = e.storage := congrArg (·.2.1) done
      refine ⟨keptOpened (keptCore kept' same) ?_ done, ?_, .inr ⟨t, congrArg Prod.fst done, noteId⟩⟩
      · rw [storage, committed]
        exact current
      · exact (congrArg Storage.committed (storage'.trans storage)).trans committed
    refine Run.afterBindEnds (Run.endsGet.mpr ?_)
    dsimp only
    split
    · exact Run.afterBindEnds (Run.endsModify.mpr (shown _ rfl))
    · exact shown c rfl

theorem followAfter {a : App} (kept : Kept a) {s : Session} (opened : a.session = some s) (id : Int)
    (remember : Bool) : (follow id remember).After a fun _ c =>
      match leftBy a.storage s with
      | none => Kept c ∧ c.session = some s
      | some left => ∃ b, Ready a s left b ∧ Arrives left id b c := by
  unfold follow
  refine Run.afterBindEnds (Run.endsGet.mpr ?_)
  rw [opened, currentOpen opened]
  dsimp only
  cases dirty : s.isDirty with
  | false =>
    rw [leftClean dirty]
    refine Run.afterBindEnds (Run.endsPure.mpr ?_)
    refine Run.afterMono (openArrives kept opened a.maxHistory id remember) ?_
    exact fun _ c arrives => ⟨a, readyStill kept opened dirty, arrives⟩
  | true =>
    refine Run.afterBindEnds (Run.endsMono (readySaved kept opened dirty) ?_)
    intro out b post
    cases given : leftBy a.storage s with
    | none =>
      rw [given] at post
      obtain ⟨ok, kept', session⟩ := post
      rw [ok]
      exact ⟨keptCore kept' rfl, session⟩
    | some left =>
      rw [given] at post
      obtain ⟨ok, ready⟩ := post
      rw [ok]
      refine Run.afterMono (openArrives ready.kept ready.session a.maxHistory id remember) ?_
      exact fun _ c arrives => ⟨b, ready, arrives⟩

end ModalNotes.App
