import ModalNotes.Proofs.App.Act
import ModalNotes.Proofs.Notebook.Target
import ModalNotes.Proofs.Session.Bound
import ModalNotes.Proofs.Session.Command

/-! Keys for a command that waits. They go to the session, but for Enter on a link, which opens the note the
link leads to and never reaches the command. -/
namespace ModalNotes.App

theorem freeKeyAfter {a : App} {s : Session} (opened : a.session = some s) (idle : a.prompt = none)
    {e : KeyEvent} (other : hostKeys.contains e.name = false) :
    match leadsFrom s e with
    | none => Shows a (Session.key e.key [] s).state ((Act.key e).run a).state
    | some id => ((Act.key e).run a).state = (follow id true a).state := by
  have same : ((Act.key e).run a).state = (key e a).state := Run.ignoredState (key e) a
  have done : (key e).After a fun _ b =>
      match leadsFrom s e with
      | none => Shows a (Session.key e.key [] s).state b
      | some id => (follow id true).After a fun _ c => b = c := by
    unfold key
    refine Run.afterBindEnds (Run.endsGet.mpr ?_)
    rw [opened, idle, other]
    exact sessionKeyAfter opened e
  rw [same]
  unfold Run.After at done
  cases leads : leadsFrom s e with
  | none =>
    rw [leads] at done
    exact done
  | some id =>
    rw [leads] at done
    exact done

theorem leadsEnter {s : Session} {e : KeyEvent} {id : Int} (leads : leadsFrom s e = some id) :
    e.key = "enter".toList ∧ s.editor.mode = .normal := by
  unfold leadsFrom at leads
  split at leads
  · rename_i both
    obtain ⟨key, mode⟩ := Bool.and_eq_true_iff.mp both
    exact ⟨of_decide_eq_true key, of_decide_eq_true mode⟩
  · contradiction

theorem leftEditor {w : Storage} {s left : Session} (given : leftBy w s = some left) :
    left.editor = s.editor := by
  unfold leftBy at given
  split at given
  · obtain ⟨r, -, rfl⟩ := Option.map_eq_some_iff.mp given
    rfl
  · cases given
    rfl

theorem followReplaces {a : App} (kept : Kept a) {s : Session} (opened : a.session = some s) (id : Int)
    (remember : Bool) : (follow id remember).After a fun _ c =>
      ∃ t, c.session = some t ∧ (t.editor = s.editor ∨ t.noteId = some id) := by
  refine Run.afterMono (followAfter kept opened id remember) fun _ c post => ?_
  cases given : leftBy a.storage s with
  | none =>
    rw [given] at post
    exact ⟨s, post.2, .inl rfl⟩
  | some left =>
    rw [given] at post
    obtain ⟨b, -, arrives⟩ := post
    rcases arrives.session with same | ⟨t, session, noteId⟩
    · exact ⟨left, same, .inl (leftEditor given)⟩
    · exact ⟨t, session, .inr noteId⟩

/- While a command waits, a key does to the app just what it does to the session. Enter on a link is the
exception: it would end the command, but the command waits on, or another session takes its place. Neither is
what the key does to the session, if the link leads to another note. -/
theorem waitingTakesKey {a : App} (tables : a.storage.committed.Sound) (shut : a.session = none)
    (acts : List Act) {s : Session} (opened : (a.after acts).session = some s)
    (idle : (a.after acts).prompt = none) (waits : s.editor.command ≠ .none) {e : KeyEvent}
    (other : hostKeys.contains e.name = false) :
    match leadsFrom s e with
    | none => Shows (a.after acts) (Session.key e.key [] s).state (a.after (acts ++ [.key e]))
    | some id =>
      ((Session.key e.key [] s).state.editor.command = .none ∨ s.editor.Overlong e.key) ∧
        (∃ t, (a.after (acts ++ [.key e])).session = some t ∧ (t.editor = s.editor ∨ t.noteId = some id)) ∧
          (s.noteId ≠ some id → ¬ s.editor.Overlong e.key →
            (a.after (acts ++ [.key e])).session ≠ some (Session.key e.key [] s).state) := by
  have kept := keptAfter (keptShut tables shut) acts
  have done := freeKeyAfter opened idle other
  rw [afterAct]
  cases leads : leadsFrom s e with
  | none =>
    rw [leads] at done
    exact done
  | some id =>
    rw [leads] at done
    obtain ⟨enter, normal⟩ := leadsEnter leads
    have outside : s.editor.mode ≠ .insert := by simp [normal]
    have ended : (Session.key e.key [] s).state.editor.command = .none ∨ s.editor.Overlong e.key :=
      enter ▸ Session.enterEnds outside waits
    obtain ⟨t, session, taken⟩ := followReplaces kept opened id true
    rw [done]
    refine ⟨ended, ⟨t, session, taken⟩, fun elsewhere short same => ?_⟩
    cases session.symm.trans same
    rcases taken with still | noteId
    · exact waits (still ▸ ended.resolve_right short)
    · have bound := congrArg Prod.fst (Session.bondsKey e.key [] s)
      exact elsewhere (bound.symm.trans noteId)

theorem mountOpens {a : App} (tables : a.storage.committed.Sound) {id : Int} {note : NoteRow}
    (asked : a.initialNote = some id) (narrow : Database.fits id = true)
    (given : a.storage.committed.noteOf id = some note) : mount.After a fun _ b =>
      b.session = some (Session.reopened id note.title note.body
        (LinkRow.byAnchor (a.storage.committed.rowsIn id)) a.maxHistory) ∧ b.prompt = a.prompt := by
  obtain ⟨s, result, rfl, -⟩ := Notebook.loadEnds tables narrow given a.maxHistory
  unfold mount
  refine Run.afterBindEnds (Run.endsGet.mpr (Run.afterBindEnds (Run.endsMono (freshEnds a.maxHistory a) ?_)))
  rintro blank _ ⟨-, rfl⟩
  rw [asked]
  refine Run.afterBindEnds (Run.endsAttempt.mpr ?_)
  rw [onStorage, Run.afterOn, Run.After, result]
  dsimp only
  refine Run.afterBindEnds (Run.endsPure.mpr ?_)
  have shown := frameShown (Session.reopened id note.title note.body
    (LinkRow.byAnchor (a.storage.committed.rowsIn id)) a.maxHistory)
      { a with storage := (Notebook.load a.maxHistory id a.storage).state }
  exact ⟨congrArg (·.1.1) shown, congrArg (·.2.1) shown⟩

def leadingOpened : Session := Session.reopened 1 ['a'] ['x'] [⟨1, 1, 0, 0, 1, 2⟩] 100

theorem leadingMounted : (leading.after [.mount]).session = some leadingOpened ∧
    (leading.after [.mount]).prompt = none := by
  have rows : LinkRow.byAnchor (leading.storage.committed.rowsIn 1) = [⟨1, 1, 0, 0, 1, 2⟩] :=
    List.mergeSort_singleton _
  obtain ⟨session, prompt⟩ := mountOpens Workspace.leadingSound (rfl : leading.initialNote = some 1) (by decide) rfl
  rw [rows] at session
  exact ⟨session, prompt⟩

def armDelete : List Act := [.mount, .key ⟨['d'], some ['d']⟩]

def deleting : Session := { leadingOpened with editor := leadingOpened.editor.armed .delete ['d'] }

theorem armsDeleting : (Session.key ['d'] [] leadingOpened).state = deleting := by
  have token : KeyPress.token ['d'] [] = ['d'] := KeyPress.tokenAlone fun _ member => nomatch member
  have sound : leadingOpened.Sound := Session.reopenedSound (Workspace.leadingSound.stored 1 _ rfl) 100
  obtain ⟨registry, mode, idle⟩ : leadingOpened.editor.registry = Keymap.standard.state ∧
      leadingOpened.editor.mode = .normal ∧ leadingOpened.editor.command = .none :=
    Session.idleOfBuffer _ _ _ _
  have found : leadingOpened.editor.registry.lookup leadingOpened.editor.mode.name (KeyPress.token ['d'] []) =
      some (Keymap.binding .normal ['d'] "operator.delete".toList,
        Keymap.named "operator.delete" (.arm .delete ['d']) "") := by
    rw [registry, mode, token, Keymap.standardFound]
    decide +kernel
  have noDigit : Editor.isDigitKey (KeyPress.token ['d'] []) = false := by
    rw [token]
    decide
  have outside : leadingOpened.editor.mode ≠ .insert := fun insert => nomatch mode.symm.trans insert
  obtain ⟨_, -, -, same⟩ := Session.keyArms sound outside idle noDigit found rfl
  exact same

theorem deletingOpened : (leading.after armDelete).session = some deleting ∧
    (leading.after armDelete).prompt = none := by
  obtain ⟨mounted, idle⟩ := leadingMounted
  have done := freeKeyAfter mounted idle (e := ⟨['d'], some ['d']⟩) (by decide)
  have leads : leadsFrom leadingOpened ⟨['d'], some ['d']⟩ = none := by decide
  rw [leads] at done
  have same : leading.after armDelete =
      ((Act.key ⟨['d'], some ['d']⟩).run (leading.after [.mount])).state := afterAct leading [.mount] _
  have pressed : KeyEvent.key ⟨['d'], some ['d']⟩ = ['d'] := by decide
  dsimp only at done
  rw [pressed, armsDeleting] at done
  rw [same]
  exact ⟨done.session, (done.2 rfl).trans idle⟩

theorem enterNotTaken : (leading.after armDelete).session = some deleting ∧
    deleting.editor.command = .delete ∧
    (leading.after (armDelete ++ [.key pressEnter])).session ≠
      some (Session.key "enter".toList [] deleting).state := by
  obtain ⟨opened, idle⟩ := deletingOpened
  have waits : deleting.editor.command = .delete := rfl
  have other : hostKeys.contains pressEnter.name = false := by decide
  have leads : leadsFrom deleting pressEnter = some 2 := by decide
  have done := waitingTakesKey Workspace.leadingSound rfl armDelete opened idle
    (fun none => nomatch waits.symm.trans none) other
  rw [leads] at done
  refine ⟨opened, waits, done.2.2 ?_ ?_⟩
  · exact fun same => nomatch (same : some (1 : Int) = some 2)
  · exact fun long => nomatch (long.2.1 : Command.delete = .executeHop)

end ModalNotes.App
