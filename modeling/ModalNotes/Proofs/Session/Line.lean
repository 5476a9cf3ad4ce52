import ModalNotes.Proofs.Buffer.Line
import ModalNotes.Proofs.Session.Count

/-! Counted deletions of lines. Downwards the count stops with the lines there are, and no line above the first
is touched. Upwards it does not stop at the first line of the text. -/
namespace ModalNotes

namespace Document

theorem withoutAbove {d : Document} {first : Nat} (past : Nat) (inside : first ≤ d.lineCount) :
    (d.without first past).take first = d.lines.take first := by
  rw [without]
  cases left : d.lines.take first ++ d.lines.drop past with
  | nil =>
    have none : first = 0 := by
      have size := congrArg List.length (List.append_eq_nil_iff.mp left).1
      rw [List.length_take, ← lineCount, Nat.min_eq_left inside] at size
      exact size
    rw [none, List.take_zero, List.take_zero]
  | cons line rest =>
    have size : (d.lines.take first).length = first := by
      rw [List.length_take, ← lineCount, Nat.min_eq_left inside]
    rw [ofLinesNonempty (List.cons_ne_nil line rest), ← left, List.take_left' size]

end Document

namespace Editor

variable {e : Editor}

theorem ignoringEnds {m : Run Buffer Bool} {Q : Buffer → Prop} (ends : m.Ends e.buffer fun _ b => Q b) :
    (ignoringResult m).Ends e fun _ f => ∃ b, Q b ∧ f = { e with buffer := b } := by
  unfold ignoringResult
  rw [Run.endsBind, endsOnBuffer]
  exact Run.endsMono ends fun _ b done => Run.endsPure.mpr ⟨b, done, rfl⟩

theorem downRounds (sound : e.buffer.Sound) (n : Nat) :
    (Run.times n (deleteDown e.buffer.cursor.row)).Ends e fun _ f =>
      ∃ b, e.buffer.DeletesDown n b ∧ f = { e with buffer := b } := by
  have rounds := Run.endsRounds (m := deleteDown e.buffer.cursor.row)
    (I := fun k f => ∃ b, e.buffer.DeletesDown k b ∧ f = { e with buffer := b }) (k := 0) (s := e) ?_ n
    ⟨e.buffer, Buffer.deletesDownNone sound, rfl⟩
  · simpa using rounds
  rintro k _ ⟨c, gone, rfl⟩
  unfold deleteDown
  rw [Run.endsBind, Run.endsGet]
  split
  · rename_i still
    exact ignoringEnds (e := { e with buffer := c }) (Buffer.deletesDownNext sound gone still)
  · rename_i above
    exact Run.endsPure.mpr ⟨c, Buffer.deletesDownEnd sound gone above, rfl⟩

theorem upRounds (sound : e.buffer.Sound) (n : Nat) :
    (Run.times n (ignoringResult (Buffer.deleteLine true))).Ends e fun _ f =>
      ∃ b, e.buffer.DeletesUp n b ∧ f = { e with buffer := b } := by
  have rounds := Run.endsRounds (m := ignoringResult (Buffer.deleteLine true))
    (I := fun k f => ∃ b, e.buffer.DeletesUp k b ∧ f = { e with buffer := b }) (k := 0) (s := e) ?_ n
    ⟨e.buffer, Buffer.deletesUpNone sound, rfl⟩
  · simpa using rounds
  rintro k _ ⟨c, gone, rfl⟩
  exact ignoringEnds (e := { e with buffer := c }) (Buffer.deletesUpNext sound gone)

end Editor

namespace Session

variable {s : Session} {digits : Text}

theorem deletedAfter {second : Char} {step : Run Editor Unit} {Q : Nat → Buffer → Prop} (sound : s.Sound)
    (normal : s.editor.mode = .normal) (idle : Idle s) (decimal : ∀ c ∈ digits, Text.isDecimal c = true)
    (known : Editor.deletion? [second] s.buffer.cursor.row = some step)
    (rounds : ∀ (e : Editor) n, e.buffer = s.buffer → (Run.times n step).Ends e fun _ f =>
      ∃ b, Q n b ∧ f = { e with buffer := b })
    (follows : ∀ n b, Q n b → s.buffer.Follows b) :
    Q (Text.count digits) (s.after (typed digits ++ presses [['d'], [second]])).buffer := by
  have typed' := typedAfter sound (by simp [normal]) (.inl idle.command) decimal
  have sound' := afterSound sound (typed digits)
  rw [typed'] at sound'
  have count : (s.editor.typing digits).pending.count.toNat = Text.count digits := by
    have all := countTyped digits []
    rw [Editor.typing, idle.pending]
    simpa using congrArg Int.toNat all
  obtain ⟨b, done, later⟩ := operatedAfter sound' normal idle.command deleteBound (by decide)
    known (rounds _ _ rfl) (follows _)
  rw [count] at done
  rw [afterAppend, typed', buffer, later, Editor.recordedBuffer]
  exact done

/- A count before a line deletion downwards takes as many lines as it says from the cursor's on, or as many as
there are, and leaves those above. The cursor stays if a line follows, and climbs if there is one above. -/
theorem deletesLinesDown (sound : s.Sound) (normal : s.editor.mode = .normal) (idle : Idle s)
    (decimal : ∀ c ∈ digits, Text.isDecimal c = true) (positive : 0 < Text.count digits)
    {second : Char} (down : second ∈ ['d', 'j']) :
    let row := s.buffer.cursor.row
    let past := row + Text.count digits
    let later := (s.after (typed digits ++ presses [['d'], [second]])).buffer
    later.document.lines = s.buffer.document.without row past ∧
      later.document.lines.take row = s.buffer.document.lines.take row ∧
      later.cursor = ⟨if past < s.buffer.document.lineCount then row else row - 1, 0⟩ := by
  have known : Editor.deletion? [second] s.buffer.cursor.row =
      some (Editor.deleteDown s.buffer.cursor.row) := by
    rcases List.mem_cons.mp down with rfl | down
    · rfl
    · rw [List.mem_singleton.mp down]
      rfl
  have gone := deletedAfter (Q := s.buffer.DeletesDown) sound normal idle decimal known
    (fun e n same => same ▸ Editor.downRounds (same ▸ sound.editor.buffer) n) fun _ _ gone => gone.follows
  refine ⟨gone.lines, ?_, ?_⟩
  · rw [gone.lines]
    exact Document.withoutAbove _ (Nat.le_of_lt sound.editor.buffer.cursor.1)
  · exact congrArg₂ Cursor.mk gone.row (gone.col positive)

theorem threeLinesDown : ∃ s, ((fresh [] "a\nb\nc\nd".toList 100 : Run Unit Session) ()).result = .ok s ∧
    (s.after (typed ['3'] ++ presses [['d'], ['d']])).buffer.document.lines = [['d']] ∧
    (s.after (typed ['3'] ++ presses [['d'], ['d']])).buffer.cursor = ⟨0, 0⟩ := by
  obtain ⟨s, opened, buffer, normal, -, idle⟩ := freshIdle [] "a\nb\nc\nd".toList 100
  have gone := deletesLinesDown (openedSound (.fresh [] _ 100 opened)) normal idle
    (List.all_eq_true.mp (by decide : ['3'].all Text.isDecimal = true)) (by decide +kernel)
    (by decide : 'd' ∈ ['d', 'j'])
  rw [buffer] at gone
  exact ⟨s, opened, gone.1.trans (by decide +kernel), gone.2.2.trans (by decide +kernel)⟩

/- Upwards the rows from the cursor's are taken until the first one is reached. What is left of the count
then takes rows from below, so the rows below are safe only with no more to delete than there is above. -/
theorem deletesLinesUp (sound : s.Sound) (normal : s.editor.mode = .normal) (idle : Idle s)
    (decimal : ∀ c ∈ digits, Text.isDecimal c = true) (positive : 0 < Text.count digits) :
    let row := s.buffer.cursor.row
    let count := Text.count digits
    let later := (s.after (typed digits ++ presses [['d'], ['k']])).buffer
    later.document.lines = s.buffer.document.without (row + 1 - count) (max (row + 1) count) ∧
      later.cursor = ⟨row - count, 0⟩ ∧
      (count ≤ row + 1 ∨ row + 1 = s.buffer.document.lineCount →
        later.document.lines = s.buffer.document.without (row + 1 - count) (row + 1)) := by
  have known : Editor.deletion? ['k'] s.buffer.cursor.row =
      some (Editor.ignoringResult (Buffer.deleteLine true)) := rfl
  have gone := deletedAfter (Q := s.buffer.DeletesUp) sound normal idle decimal known
    (fun e n same => same ▸ Editor.upRounds (same ▸ sound.editor.buffer) n) fun _ _ gone => gone.follows
  refine ⟨gone.lines, congrArg₂ Cursor.mk gone.row (gone.col positive), fun safe => ?_⟩
  refine gone.lines.trans ?_
  rcases safe with few | last
  · rw [Nat.max_eq_left few]
  · have none : ∀ past, s.buffer.cursor.row + 1 ≤ past → s.buffer.document.lines.drop past = [] :=
      fun past behind => List.drop_of_length_le (by rw [Document.lineCount] at last; omega)
    rw [Document.without, Document.without, none _ (Nat.le_max_left _ _), none _ (Nat.le_refl _)]

theorem twoLinesUp : ∃ s, ((fresh [] "a\nb\nc".toList 100 : Run Unit Session) ()).result = .ok s ∧
    (s.after (typed ['2'] ++ presses [['d'], ['k']])).buffer.document.lines = [['c']] ∧
    (s.after (typed ['2'] ++ presses [['d'], ['k']])).buffer.cursor = ⟨0, 0⟩ := by
  obtain ⟨s, opened, buffer, normal, -, idle⟩ := freshIdle [] "a\nb\nc".toList 100
  have gone := deletesLinesUp (openedSound (.fresh [] _ 100 opened)) normal idle
    (List.all_eq_true.mp (by decide : ['2'].all Text.isDecimal = true)) (by decide +kernel)
  rw [buffer] at gone
  exact ⟨s, opened, gone.1.trans (by decide +kernel), gone.2.1.trans (by decide +kernel)⟩

end Session

end ModalNotes
