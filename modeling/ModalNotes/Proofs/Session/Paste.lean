import ModalNotes.Proofs.Buffer.Swap
import ModalNotes.Proofs.Session.Count

/-! Deleting and pasting at the keys. A paste puts back what the key before it has deleted: characters to where
they stood, and a line below the line that has taken its place, unless it is empty. -/
namespace ModalNotes

namespace Editor

variable {e : Editor} {name : Text} {modifiers : List Text}

theorem outcomeKey {m : Run Buffer Bool} {handler : Action} {message : String} (safe : Buffer.Safe m)
    (sound : e.buffer.Sound) (other : e.mode ≠ .insert)
    (bound : e.Bound (KeyPress.token name modifiers) handler)
    (does : perform handler = do pure (outcomeOf (← onBuffer m) message)) :
    (key name modifiers).Ends e fun _ later => later = changed m 1 e := by
  have performs : (perform handler).Ends e fun reply f =>
      Quiet reply ∧ f = { e with buffer := Buffer.again m 1 e.buffer } := by
    obtain ⟨told, ok, -⟩ := safe e.buffer sound
    rw [does, Run.endsBind, endsOnBuffer]
    exact ⟨told, ok, Run.endsPure.mpr ⟨⟨rfl, rfl⟩, rfl⟩⟩
  refine Run.endsMono (keyRecords other (bound.ends performs)) ?_
  rintro _ _ ⟨_, ⟨_, rfl, rfl⟩, rfl⟩
  rfl

def cutOut (e : Editor) : Editor :=
  e.recorded (switched .normal (e.rests (Buffer.cut e.buffer).state))

theorem cutKey (sound : e.Sound) (other : e.mode ≠ .insert)
    (bound : e.Bound (KeyPress.token name modifiers) .cut) :
    (key name modifiers).Ends e fun _ later => later = e.cutOut := by
  have performs : (perform .cut).Ends e fun reply f => reply.command = none ∧
      reply.switchTo = some .normal ∧ f = { e with buffer := (Buffer.cut e.buffer).state } := by
    obtain ⟨cut, ok, -⟩ := Buffer.cutEnds sound.buffer sound.selects
    unfold perform
    rw [Run.endsBind, endsOnBuffer]
    exact ⟨cut, ok, Run.endsPure.mpr ⟨rfl, rfl, rfl⟩⟩
  refine Run.endsMono (keyResponds other (bound.answers performs)) ?_
  rintro _ _ ⟨reply, _, ⟨_, ⟨normal, rfl⟩, rfl⟩, rfl⟩
  simp only [responded, normal]
  rfl

theorem cutOutFollows (sound : e.Sound) : e.buffer.Follows e.cutOut.buffer := by
  obtain ⟨_, -, follows, -⟩ := Buffer.cutEnds sound.buffer sound.selects
  rw [cutOut, recordedBuffer]
  have steady : (Buffer.cut e.buffer).state.Steady (switched .normal (e.rests (Buffer.cut e.buffer).state)).buffer :=
    ⟨rfl, follows.sound.cursor, rfl, rfl⟩
  exact follows.trans (steady.follows follows.sound)

end Editor

namespace Session

variable {s : Session} {keys : List Text}

def Does (m : Run Buffer Bool) (keys : List Text) : Prop :=
  ∀ s : Session, s.Sound → s.editor.mode = .normal → Idle s →
    (s.after (presses keys)).editor = Editor.changed m 1 s.editor

theorem doesOnce {m : Run Buffer Bool} (counts : Counts .normal keys (Editor.changed m)) : Does m keys := by
  intro s sound normal idle
  have once := counts s sound normal idle.command
  rw [idle.pending] at once
  exact once

theorem doesOutcome {m : Run Buffer Bool} {c : Char} {handler : Action} {message : String}
    (safe : Buffer.Safe m) (noDigit : Text.isDigit c = false) (binds : Keymap.Binds .normal [c] handler)
    (does : Editor.perform handler = do pure (Editor.outcomeOf (← Editor.onBuffer m) message)) :
    Does m [[c]] := by
  intro s sound normal idle
  have bound : s.editor.Bound (KeyPress.token [c] []) handler :=
    Editor.boundSingle sound.editor.registry idle.command normal noDigit binds
  exact afterFollowed sound (Editor.outcomeKey safe sound.editor.buffer (by simp [normal]) bound does)
    (changedFollows safe sound 1)

theorem pasteKeysBound : Keymap.Binds .normal ['p'] .paste ∧ Keymap.Binds .normal ['D'] .deleteToLineEnd ∧
    Keymap.Binds .visual ['x'] .cut := by decide +kernel

theorem pasteDoes : Does Buffer.paste [['p']] :=
  doesOutcome Buffer.safePaste (by decide) pasteKeysBound.1 rfl

theorem lineEndDoes : Does Buffer.deleteToLineEnd [['D']] :=
  doesOutcome Buffer.safeDeleteToLineEnd (by decide) pasteKeysBound.2.1 rfl

theorem lineDoes : Does (Buffer.deleteLine false) [['d'], ['d']] := by
  intro s sound normal idle
  have runs : (Run.times s.editor.pending.count.toNat (Editor.deleteDown s.buffer.cursor.row)).Ends
      (s.editor.armed .delete ['d']) fun _ f => ∃ b, b = Buffer.again (Buffer.deleteLine false) 1 s.buffer ∧
        f = { s.editor.armed .delete ['d'] with buffer := b } := by
    have once : s.editor.pending.count.toNat = 0 + 1 := by rw [idle.pending]; rfl
    rw [once, Run.times_succ, Run.times_zero, Run.endsBind]
    unfold Editor.deleteDown Editor.ignoringResult
    obtain ⟨told, ok, -⟩ := Buffer.safeDeleteLine false s.buffer sound.editor.buffer
    have still : s.buffer.cursor.row ≤ (s.editor.armed .delete ['d']).buffer.cursor.row := Nat.le_refl _
    rw [Run.endsBind, Run.endsGet, if_pos still, Run.endsBind, Editor.endsOnBuffer]
    exact ⟨told, ok, Run.endsPure.mpr (Run.endsPure.mpr ⟨_, rfl, rfl⟩)⟩
  have known : (s.editor.armed .delete ['d']).operation? ['d'] =
      some (Editor.deleteDown s.buffer.cursor.row) := rfl
  obtain ⟨_, rfl, same⟩ := operatedAfter sound normal idle.command deleteBound (by decide) known runs
    (by rintro _ rfl; exact Buffer.againFollows (Buffer.safeDeleteLine false) sound.editor.buffer 1)
  exact same

theorem changedRests (m : Run Buffer Bool) (e : Editor) :
    (Editor.changed m 1 e).mode = e.mode ∧ (Editor.changed m 1 e).command = .none ∧
      (Editor.changed m 1 e).pending = {} ∧ (Editor.changed m 1 e).buffer = (m e.buffer).state := by
  unfold Editor.changed Editor.recorded
  split <;> exact ⟨rfl, rfl, rfl, rfl⟩

theorem pasteAfter (sound : s.Sound) (normal : (s.after (presses keys)).editor.mode = .normal)
    (idle : Idle (s.after (presses keys))) :
    (s.after (presses (keys ++ [['p']]))).buffer = (Buffer.paste (s.after (presses keys)).buffer).state := by
  have both : presses (keys ++ [['p']]) = presses keys ++ presses [['p']] := List.map_append
  have pasted := pasteDoes _ (afterSound sound (presses keys)) normal idle
  rw [both, afterAppend, buffer, pasted]
  exact (changedRests Buffer.paste _).2.2.2

def characterKills : Mode → List (List Text)
  | .normal => [[['x']], [['D']], [['d'], ['h']], [['d'], ['l']], [['d'], ['w']], [['d'], ['b']],
    [['y'], ['l']], [['y'], ['w']], [['y'], ['b']]]
  | .visual => [[['x']]]
  | .insert => []

structure Killing (s later : Session) : Prop where
  normal : later.editor.mode = .normal
  idle : Idle later
  killed : s.buffer.Killed later.buffer

theorem killingDoes {m : Run Buffer Bool} (sound : s.Sound) (normal : s.editor.mode = .normal) (idle : Idle s)
    (does : Does m keys) (kills : m.Ends s.buffer fun _ later => s.buffer.Killed later) :
    Killing s (s.after (presses keys)) := by
  have same := does s sound normal idle
  obtain ⟨mode, command, pending, buffer⟩ := changedRests m s.editor
  obtain ⟨_, -, killed⟩ := kills
  have left : (s.after (presses keys)).buffer = (m s.buffer).state := (congrArg Editor.buffer same).trans buffer
  exact ⟨by rw [same, mode, normal], ⟨by rw [same, command], by rw [same, pending]⟩, left.symm ▸ killed⟩

theorem killingCut (sound : s.Sound) (visual : s.editor.mode = .visual) (idle : Idle s) :
    Killing s (s.after (presses [['x']])) := by
  have bound : s.editor.Bound (KeyPress.token ['x'] []) .cut :=
    Editor.boundSingle sound.editor.registry idle.command visual (by decide) pasteKeysBound.2.2
  have same : (s.after (presses [['x']])).editor = s.editor.cutOut :=
    afterFollowed sound (Editor.cutKey sound.editor (by simp [visual]) bound) (Editor.cutOutFollows sound.editor)
  obtain ⟨_, -, killed⟩ := Buffer.cutKills sound.editor.buffer sound.editor.selects
  have rests : s.editor.cutOut.mode = .normal ∧ s.editor.cutOut.command = .none ∧
      s.editor.cutOut.pending = {} := by
    unfold Editor.cutOut Editor.recorded
    split <;> exact ⟨rfl, rfl, rfl⟩
  refine ⟨by rw [same, rests.1], ⟨by rw [same, rests.2.1], by rw [same, rests.2.2]⟩, ?_⟩
  have left : (s.after (presses [['x']])).buffer =
      (Editor.switched .normal (s.editor.rests (Buffer.cut s.buffer).state)).buffer :=
    (congrArg Editor.buffer same).trans (Editor.recordedBuffer _ _)
  rw [left]
  exact killed.same rfl rfl rfl rfl

theorem killing (sound : s.Sound) (idle : Idle s) (member : keys ∈ characterKills s.editor.mode) :
    Killing s (s.after (presses keys)) := by
  have buffer := sound.editor.buffer
  cases mode : s.editor.mode with
  | insert => exact absurd (mode ▸ member) List.not_mem_nil
  | visual =>
    rw [mode] at member
    cases List.mem_singleton.mp member
    exact killingCut sound mode idle
  | normal =>
    have counts := killsCount
    simp only [kills, List.forall_mem_cons] at counts
    obtain ⟨left, right, word, wordBack, -, yankRight, yankWord, yankBack, -⟩ := counts
    have all : ∀ keys ∈ characterKills .normal, ∃ m, Does m keys ∧
        m.Ends s.buffer fun _ later => s.buffer.Killed later := by
      simp only [characterKills, List.forall_mem_cons]
      refine ⟨?next, ?lineEnd, ?left, ?right, ?word, ?wordBack, ?yankRight, ?yankWord, ?yankBack,
        List.forall_mem_nil _⟩
      case next => exact ⟨_, doesOnce nextCharCounts, Buffer.deleteNextCharKills buffer⟩
      case lineEnd => exact ⟨_, lineEndDoes, Buffer.deleteToLineEndKills buffer⟩
      case left => exact ⟨_, doesOnce left.1, Buffer.deleteCharKills buffer⟩
      case right => exact ⟨_, doesOnce right.1, Buffer.deleteNextCharKills buffer⟩
      case word => exact ⟨_, doesOnce word.1, Buffer.deleteNextWordKills buffer⟩
      case wordBack => exact ⟨_, doesOnce wordBack.1, Buffer.deleteWordKills buffer⟩
      case yankRight => exact ⟨_, doesOnce yankRight.1, Buffer.deleteNextCharKills buffer⟩
      case yankWord => exact ⟨_, doesOnce yankWord.1, Buffer.deleteNextWordKills buffer⟩
      case yankBack => exact ⟨_, doesOnce yankBack.1, Buffer.deleteWordKills buffer⟩
    rw [mode] at member
    obtain ⟨m, does, kills⟩ := all keys member
    exact killingDoes sound mode idle does kills

/- A deletion of characters that has changed the text has taken one run out of it, which is in the register,
and pasting puts the run back where it stood. -/
theorem killThenPaste (sound : s.Sound) (idle : Idle s) (member : keys ∈ characterKills s.editor.mode)
    (changes : (s.after (presses keys)).text ≠ s.text) :
    ∃ front run back, run ≠ [] ∧ s.buffer.Kills front run back (s.after (presses keys)).buffer ∧
      (s.after (presses (keys ++ [['p']]))).text = s.text := by
  obtain ⟨normal, idle', killed⟩ := killing sound idle member
  rcases killed with same | ⟨front, run, back, kills⟩
  · exact absurd same changes
  refine ⟨front, run, back, ?_, kills, ?_⟩
  · rintro rfl
    exact changes (kills.after.trans kills.before.symm)
  · obtain ⟨_, -, back⟩ := kills.pasted (afterSound sound (presses keys)).editor.buffer
    rw [text, pasteAfter sound normal idle']
    exact back

theorem lineEndReturns : ∃ s, ((fresh [] "\nab".toList 100 : Run Unit Session) ()).result = .ok s ∧
    (s.after (presses [['x']])).text = "ab".toList ∧
    (s.after (presses [['x'], ['p']])).text = "\nab".toList := by
  obtain ⟨s, opened, buffer, normal, -, idle⟩ := freshIdle [] "\nab".toList 100
  have sound := openedSound (.fresh [] _ 100 opened)
  have member : [['x']] ∈ characterKills s.editor.mode := by
    rw [normal]
    decide
  have deleted : (s.after (presses [['x']])).text = "ab".toList := by
    have left := doesOnce nextCharCounts s sound normal idle
    rw [text, Session.buffer, left, (changedRests _ _).2.2.2]
    rw [Session.buffer] at buffer
    rw [buffer]
    decide +kernel
  have original : s.text = "\nab".toList := by
    rw [text, buffer]
    decide +kernel
  obtain ⟨_, _, _, -, -, pasted⟩ := killThenPaste sound idle member (by rw [deleted, original]; decide)
  exact ⟨s, opened, deleted, pasted.trans original⟩

/- Deleting a line of several and pasting loses no line that has text in it: it changes places with the line
below it, or comes back to where it was as the last one. An empty line is lost. -/
theorem deletedLineReturns {above below : List Text} {line : Text} (sound : s.Sound)
    (normal : s.editor.mode = .normal) (idle : Idle s) (lines : s.buffer.document.lines = above ++ line :: below)
    (row : s.buffer.cursor.row = above.length) (several : above ++ below ≠ []) :
    let gone := (s.after (presses [['d'], ['d']])).buffer
    let later := (s.after (presses [['d'], ['d'], ['p']])).buffer
    s.buffer.Swaps above below line gone later ∧
      (line ≠ [] → later.document.lines.Perm s.buffer.document.lines) := by
  have same := lineDoes s sound normal idle
  obtain ⟨mode, command, pending, buffer⟩ := changedRests (Buffer.deleteLine false) s.editor
  have gone : (s.after (presses [['d'], ['d']])).buffer = (Buffer.deleteLine false s.buffer).state :=
    (congrArg Editor.buffer same).trans buffer
  have idle' : Idle (s.after (presses [['d'], ['d']])) := ⟨by rw [same, command], by rw [same, pending]⟩
  have pasted := pasteAfter sound (by rw [same, mode, normal]) idle'
  have keys : [['d'], ['d']] ++ [['p']] = [['d'], ['d'], ['p']] := rfl
  rw [keys] at pasted
  have swaps := Buffer.deletePasteSwaps sound.editor.buffer lines row several
  dsimp only
  rw [pasted, gone, lines]
  refine ⟨swaps, fun some => ?_⟩
  cases below with
  | nil =>
    rw [Session.buffer, (swaps.last some rfl).1]
  | cons next rest =>
    rw [Session.buffer, (swaps.inner some next rest rfl).1]
    exact List.Perm.append_left above (List.Perm.swap line next rest)

theorem firstLineReturns : (∃ s, ((fresh [] "a\nb".toList 100 : Run Unit Session) ()).result = .ok s ∧
      (s.after (presses [['d'], ['d'], ['p']])).buffer.document.lines = [['b'], ['a']] ∧
      (s.after (presses [['d'], ['d'], ['p']])).buffer.cursor = ⟨1, 0⟩) ∧
    ∃ s, ((fresh [] "\na".toList 100 : Run Unit Session) ()).result = .ok s ∧
      (s.after (presses [['d'], ['d'], ['p']])).buffer.document.lines = [['a']] := by
  constructor
  · obtain ⟨s, opened, buffer, normal, -, idle⟩ := freshIdle [] "a\nb".toList 100
    have lines : s.buffer.document.lines = [] ++ ['a'] :: [['b']] := by rw [buffer]; decide +kernel
    have first : s.buffer.cursor.row = ([] : List Text).length := by rw [buffer]; rfl
    obtain ⟨swaps, -⟩ := deletedLineReturns (openedSound (.fresh [] _ 100 opened)) normal idle lines first
      (List.cons_ne_nil _ _)
    exact ⟨s, opened, swaps.inner (List.cons_ne_nil _ _) ['b'] [] rfl⟩
  · obtain ⟨s, opened, buffer, normal, -, idle⟩ := freshIdle [] "\na".toList 100
    have lines : s.buffer.document.lines = [] ++ [] :: [['a']] := by rw [buffer]; decide +kernel
    have first : s.buffer.cursor.row = ([] : List Text).length := by rw [buffer]; rfl
    obtain ⟨swaps, -⟩ := deletedLineReturns (openedSound (.fresh [] _ 100 opened)) normal idle lines first
      (List.cons_ne_nil _ _)
    exact ⟨s, opened, by rw [swaps.lost rfl]; exact swaps.deleted⟩

end Session

end ModalNotes
