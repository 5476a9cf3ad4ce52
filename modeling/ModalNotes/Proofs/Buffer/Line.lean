import ModalNotes.Proofs.Buffer.Record
import ModalNotes.Proofs.Offset

/-! Deleting the cursor's line takes that line out of the document and leaves all others, whether it is the
only line, the last one or one above. The cursor goes to the line below, or up where there is none. -/
namespace ModalNotes

namespace Document

/- The lines without the rows from `first` up to `past`; an empty line if none is left. -/
def without (d : Document) (first past : Nat) : List Text :=
  (ofLines (d.lines.take first ++ d.lines.drop past)).lines

theorem ofLinesNonempty {ls : List Text} (nonempty : ls ≠ []) : (ofLines ls).lines = ls := by
  rw [ofLines, List.isEmpty_eq_false_iff.mpr nonempty]
  rfl

theorem ofLinesErase (ls : List Text) (row : Nat) :
    (ofLines ((ofLines ls).lines.eraseIdx row)).lines = (ofLines (ls.eraseIdx row)).lines := by
  cases ls with
  | nil => cases row <;> rfl
  | cons line rest => rw [ofLinesNonempty (List.cons_ne_nil line rest)]

theorem eraseBehind {ls : List Text} {first : Nat} (past : Nat) (inside : first ≤ ls.length) :
    (ls.take first ++ ls.drop past).eraseIdx first = ls.take first ++ ls.drop (past + 1) := by
  have size : (ls.take first).length = first := by rw [List.length_take, Nat.min_eq_left inside]
  rw [List.eraseIdx_append_of_length_le (Nat.le_of_eq size), size, Nat.sub_self, List.eraseIdx_zero,
    List.tail_drop]

theorem eraseBefore {ls : List Text} {first : Nat} (past : Nat) (inside : first < ls.length) :
    (ls.take (first + 1) ++ ls.drop past).eraseIdx first = ls.take first ++ ls.drop past := by
  have size : (ls.take (first + 1)).length = first + 1 := by rw [List.length_take, Nat.min_eq_left inside]
  have whole : (ls.take (first + 1)).drop (first + 1) = [] := List.drop_of_length_le (Nat.le_of_eq size)
  have within : first < (ls.take (first + 1)).length := by rw [size]; exact Nat.lt_succ_self first
  rw [List.eraseIdx_append_of_lt_length within, List.eraseIdx_eq_take_drop_succ, List.take_take,
    Nat.min_eq_left (Nat.le_succ first), whole, List.append_nil]

theorem withoutBehind {d : Document} {first : Nat} (past : Nat) (inside : first ≤ d.lineCount) :
    (ofLines ((d.without first past).eraseIdx first)).lines = d.without first (past + 1) := by
  rw [without, ofLinesErase, eraseBehind past inside]
  rfl

theorem withoutBefore {d : Document} {first : Nat} (past : Nat) (inside : first < d.lineCount) :
    (ofLines ((d.without (first + 1) past).eraseIdx first)).lines = d.without first past := by
  rw [without, ofLinesErase, eraseBefore past inside]
  rfl

theorem withoutNone {d : Document} (sound : d.Sound) (row : Nat) : d.without row row = d.lines := by
  rw [without, List.take_append_drop, ofLinesNonempty sound.nonempty]

theorem ofLinesCount (ls : List Text) : (ofLines ls).lineCount = max 1 ls.length := by
  cases ls with
  | nil => rfl
  | cons line rest =>
    rw [lineCount, ofLinesNonempty (List.cons_ne_nil line rest), List.length_cons]
    omega

theorem withoutCount {d : Document} {first past : Nat} (inside : first ≤ d.lineCount) :
    (d.without first past).length = max 1 (first + (d.lineCount - past)) := by
  have size := ofLinesCount (d.lines.take first ++ d.lines.drop past)
  rw [lineCount] at inside size ⊢
  rw [without, size, List.length_append, List.length_take, Nat.min_eq_left inside, List.length_drop]

end Document

namespace Buffer

open Document (ofLines)

theorem startOk {d : Document} {row : Nat} (le : row ≤ d.lineCount) (col : Nat) :
    d.offset ⟨row, col⟩ = .ok (d.start row + col) := if_pos le

theorem onlyLineErased {d : Document} {line : Text} (only : d.lines = [line]) :
    (d.spliced 0 line.length []).lines = (ofLines (d.lines.eraseIdx 0)).lines := by
  have text : d.text = line := by rw [Document.text, only]; rfl
  simp only [Document.spliced, Document.replaceText, text, only]
  simp [Text.lines, Text.splitOn, ofLines]

theorem innerLineErased {d : Document} {row : Nat} (sound : d.Sound) (below : row + 1 < d.lineCount) :
    (d.spliced (d.start row) (d.start (row + 1)) []).lines = (ofLines (d.lines.eraseIdx row)).lines := by
  have inside : d.Holds ⟨row, 0⟩ := ⟨Nat.lt_of_succ_lt below, Nat.zero_le _⟩
  have next : d.Holds ⟨row + 1, 0⟩ := ⟨below, Nat.zero_le _⟩
  have front : d.text.take (d.start row) = Text.unlines (d.lines.take row ++ [[]]) := Document.textTake inside
  have back : d.text.drop (d.start (row + 1)) = Text.unlines (d.lines.drop (row + 1)) := by
    obtain ⟨line, found, -, -⟩ := Document.someLine below
    have rest : d.lines.drop (row + 1) = line :: d.lines.drop (row + 1 + 1) :=
      List.drop_eq_getElem?_toList_append.trans (by rw [found]; rfl)
    have after := Document.textDrop next
    rw [rest, Document.unlinesBehind]
    simpa [found] using after
  have nonempty : d.lines.drop (row + 1) ≠ [] := by
    have count := below
    rw [Document.lineCount] at count
    simpa using count
  obtain ⟨head, tail, rest⟩ := List.exists_cons_of_ne_nil nonempty
  have clean : ∀ line ∈ d.lines.drop (row + 1), '\n' ∉ line :=
    fun line member => sound.clean line (List.mem_of_mem_drop member)
  have pieces : Text.lines (d.text.drop (d.start (row + 1))) = head :: tail := by
    rw [back, Text.linesUnlines nonempty clean, rest]
  have above : ∀ line ∈ d.lines.take row ++ [[]], '\n' ∉ line := by
    intro line member
    rcases List.mem_append.mp member with old | new
    · exact sound.clean line (List.mem_of_mem_take old)
    · rw [List.mem_singleton.mp new]
      exact List.not_mem_nil
  have joined := Text.linesAppend above pieces
  rw [List.eraseIdx_eq_take_drop_succ, rest, Document.ofLinesNonempty (by simp)]
  rw [Document.spliced, front]
  exact joined

theorem lastLineErased {d : Document} {row : Nat} (sound : d.Sound) (last : row + 2 = d.lineCount) :
    (d.spliced (d.start row + d.width row) (d.start (row + 1) + d.width (row + 1)) []).lines =
      (ofLines (d.lines.eraseIdx (row + 1))).lines := by
  have above : d.Holds ⟨row, d.width row⟩ := ⟨by dsimp only; omega, Nat.le_refl _⟩
  have end' : d.Holds ⟨row + 1, d.width (row + 1)⟩ := ⟨by dsimp only; omega, Nat.le_refl _⟩
  obtain ⟨line, found, -, size⟩ := Document.someLine above.1
  have lines : d.lines.take row ++ [line] = d.lines.take (row + 1) := by
    rw [List.take_add_one, found]
    rfl
  have front : d.text.take (d.start row + d.width row) = Text.unlines (d.lines.take (row + 1)) := by
    rw [Document.textTake above, ← lines]
    simp [found, size]
  have count := last
  rw [Document.lineCount] at count
  have back : d.text.drop (d.start (row + 1) + d.width (row + 1)) = [] := by
    rw [Document.textDrop end', Document.width, List.drop_length, List.nil_append,
      List.drop_of_length_le (by dsimp only; omega)]
    rfl
  have nonempty : d.lines.take (row + 1) ≠ [] := by
    rw [← lines]
    exact List.append_ne_nil_of_right_ne_nil _ (List.cons_ne_nil _ _)
  have clean : ∀ l ∈ d.lines.take (row + 1), '\n' ∉ l :=
    fun l member => sound.clean l (List.mem_of_mem_take member)
  rw [List.eraseIdx_eq_take_drop_succ, List.drop_of_length_le (by omega), List.append_nil,
    Document.ofLinesNonempty nonempty, Document.spliced, front, back]
  simp only [Document.replaceText, List.append_nil]
  exact Text.linesUnlines nonempty clean

theorem lineDeletionErases {d : Document} {row : Nat} {line : Text} {e : Edit} (sound : d.Sound)
    (found : d.line? row = .ok line) (ok : lineDeletion d row line = .ok e) :
    (d.spliced e.start e.stop e.text).lines = (ofLines (d.lines.eraseIdx row)).lines ∧
      e.landing = some ⟨min row (d.lastRow - 1), 0⟩ := by
  obtain ⟨inside, size⟩ := Document.lineFound found
  unfold lineDeletion at ok
  split at ok
  · rename_i single
    cases ok
    obtain ⟨only, same⟩ := List.length_eq_one_iff.mp single
    have first : row = 0 := by omega
    obtain rfl := first
    have own : only = line := by simpa [Document.line?, same] using found
    obtain rfl := own
    have low : min 0 (d.lastRow - 1) = 0 := Nat.zero_min _
    exact ⟨onlyLineErased same, by rw [low]⟩
  split at ok
  · rename_i above
    simp only [startOk (Nat.le_of_lt inside), startOk inside, bind, Except.bind] at ok
    cases ok
    have low : min row (d.lastRow - 1) = row := by omega
    exact ⟨innerLineErased sound (Nat.add_lt_of_lt_sub above), by rw [low]⟩
  · rename_i single last
    simp only [Document.lastRow, Document.lineCount] at single last inside
    obtain ⟨above, rfl⟩ : ∃ above, row = above + 1 := ⟨row - 1, by omega⟩
    have before : above < d.lineCount := by simp only [Document.lineCount]; omega
    simp only [Nat.add_sub_cancel, Document.lineLengthOk before, startOk (Nat.le_of_lt before),
      startOk (Nat.le_of_lt inside), bind, Except.bind, size] at ok
    cases ok
    have low : min (above + 1) (d.lastRow - 1) = above := by
      simp only [Document.lastRow]
      omega
    refine ⟨lastLineErased sound ?_, by rw [low]⟩
    simp only [Document.lineCount]
    omega

structure Erases (b : Buffer) (moveUp : Bool) (later : Buffer) : Prop where
  follows : b.Follows later
  lines : later.document.lines = (ofLines (b.document.lines.eraseIdx b.cursor.row)).lines
  cursor : later.cursor =
    ⟨if moveUp then b.cursor.row - 1 else min b.cursor.row (b.document.lastRow - 1), 0⟩

theorem erasesNothing {b : Buffer} (sound : b.Sound) (moveUp : Bool) (single : b.document.lineCount = 1)
    (empty : b.document.line? b.cursor.row = .ok []) : b.Erases moveUp b := by
  obtain ⟨inside, size⟩ := Document.lineFound empty
  have short := sound.cursor.2
  rw [← size, List.length_nil] at short
  have row : b.cursor.row = 0 := by omega
  have col : b.cursor.col = 0 := Nat.le_zero.mp short
  obtain ⟨only, same⟩ := List.length_eq_one_iff.mp single
  have blank : only = [] := by simpa [Document.line?, same, row] using empty
  refine ⟨followsRefl sound, ?_, ?_⟩
  · rw [same, blank, row]
    rfl
  · have origin : b.cursor = ⟨0, 0⟩ := by
      rcases same : b.cursor with ⟨r, c⟩
      rw [same] at row col
      obtain rfl : r = 0 := row
      obtain rfl : c = 0 := col
      rfl
    rw [origin]
    cases moveUp <;> simp

theorem erasedLanding {b : Buffer} {e : Edit} (inside : b.cursor.row < b.document.lineCount)
    (lines : (b.edited e).lines = (ofLines (b.document.lines.eraseIdx b.cursor.row)).lines)
    (landing : e.landing = some ⟨min b.cursor.row (b.document.lastRow - 1), 0⟩) :
    b.landed e = ⟨min b.cursor.row (b.document.lastRow - 1), 0⟩ := by
  have count := Document.ofLinesCount (b.document.lines.eraseIdx b.cursor.row)
  rw [List.length_eraseIdx_of_lt inside, Document.lineCount, ← lines] at count
  simp only [landed, landing, Option.getD_some, Document.clamp, Document.lastRow, Int.toNat_natCast, count]
  congr 1
  omega

theorem deleteLineErases {b : Buffer} (sound : b.Sound) (moveUp : Bool) :
    (deleteLine moveUp).Ends b fun _ later => b.Erases moveUp later := by
  obtain ⟨line, found, -, -⟩ := Document.lineOk sound.cursor.1
  obtain ⟨e, deletion⟩ : ∃ e, lineDeletion b.document b.cursor.row line = .ok e :=
    lineDeletionOk sound.cursor.1
  obtain ⟨lines, landing⟩ := lineDeletionErases sound.document found deletion
  unfold deleteLine
  rw [Run.endsBind, Run.endsGet, Run.endsBind, Run.endsOfExcept]
  refine ⟨line, found, ?_⟩
  split
  · rename_i nothing
    obtain ⟨single, empty⟩ := Bool.and_eq_true_iff.mp nothing
    rw [List.isEmpty_iff.mp empty] at found
    exact Run.endsPure.mpr (erasesNothing sound moveUp (of_decide_eq_true single) found)
  · rw [Run.endsBind, Run.endsOfExcept]
    refine ⟨e, deletion, ?_⟩
    rw [Run.endsBind]
    refine Run.endsMono (Run.endsBoth (safeEdit e b sound) (editsExactly sound e)) ?_
    rintro _ middle ⟨⟨follows, -⟩, edits⟩
    have place : middle.cursor = ⟨min b.cursor.row (b.document.lastRow - 1), 0⟩ :=
      edits.cursor.trans (erasedLanding sound.cursor.1 lines landing)
    have erased : middle.document.lines = (ofLines (b.document.lines.eraseIdx b.cursor.row)).lines := by
      rw [edits.document]
      exact lines
    have climbed := safeClimb b.cursor.row line moveUp middle follows.sound
    rw [Run.endsModify] at climbed
    rw [Run.endsBind, Run.endsModify, Run.endsPure]
    refine ⟨follows.trans climbed.1, ?_, ?_⟩
    · dsimp only
      split <;> exact erased
    · have inside := sound.cursor.1
      simp only [Document.lineCount] at inside
      cases moveUp with
      | false => exact place
      | true =>
        simp only [Bool.true_and, if_true, Buffer.yank, place, Document.lastRow]
        -- The row is the same only where there was a line below.
        split
        · rfl
        · rename_i stays
          simp only [Bool.and_eq_true, beq_iff_eq, decide_eq_true_eq, not_and] at stays
          have row : min b.cursor.row (b.document.lines.length - 1 - 1) = b.cursor.row - 1 := by omega
          rw [row]

/- The buffer after `n` deletions of the cursor's line, none of them above the row of the first. -/
structure DeletesDown (b : Buffer) (n : Nat) (later : Buffer) : Prop where
  follows : b.Follows later
  lines : later.document.lines = b.document.without b.cursor.row (b.cursor.row + n)
  row : later.cursor.row = if b.cursor.row + n < b.document.lineCount then b.cursor.row else b.cursor.row - 1
  col : 0 < n → later.cursor.col = 0

theorem deletesDownNone {b : Buffer} (sound : b.Sound) : b.DeletesDown 0 b where
  follows := followsRefl sound
  lines := (Document.withoutNone sound.document _).symm
  row := (if_pos sound.cursor.1).symm
  col none := absurd none (Nat.lt_irrefl 0)

theorem deletesDownNext {b c : Buffer} {n : Nat} (sound : b.Sound) (gone : b.DeletesDown n c)
    (still : b.cursor.row ≤ c.cursor.row) :
    (deleteLine false).Ends c fun _ later => b.DeletesDown (n + 1) later := by
  have inside := Nat.le_of_lt sound.cursor.1
  have row : c.cursor.row = b.cursor.row ∧
      (b.cursor.row + n < b.document.lineCount ∨ b.cursor.row = 0) := by
    have row := gone.row
    split at row <;> omega
  obtain ⟨row, alive⟩ := row
  refine Run.endsMono (deleteLineErases gone.follows.sound false) fun _ later erases => ?_
  refine ⟨gone.follows.trans erases.follows, ?_, ?_, fun _ => congrArg Cursor.col erases.cursor⟩
  · rw [erases.lines, gone.lines, row]
    exact Document.withoutBehind (b.cursor.row + n) inside
  · have size : c.document.lineCount =
        max 1 (b.cursor.row + (b.document.lineCount - (b.cursor.row + n))) :=
      (congrArg List.length gone.lines).trans (Document.withoutCount inside)
    have last : c.document.lastRow = c.document.lineCount - 1 := rfl
    have within := sound.cursor.1
    simp only [erases.cursor, last, row, Bool.false_eq_true, if_false]
    split <;> omega

theorem deletesDownEnd {b c : Buffer} {n : Nat} (sound : b.Sound) (gone : b.DeletesDown n c)
    (above : ¬ b.cursor.row ≤ c.cursor.row) : b.DeletesDown (n + 1) c := by
  have row := gone.row
  have past : b.document.lineCount ≤ b.cursor.row + n := by
    split at row <;> omega
  have bare : b.document.lines.drop (b.cursor.row + n) = b.document.lines.drop (b.cursor.row + (n + 1)) := by
    simp only [Document.lineCount] at past
    rw [List.drop_of_length_le past, List.drop_of_length_le (by omega)]
  refine ⟨gone.follows, ?_, ?_, fun _ => ?_⟩
  · rw [gone.lines, Document.without, Document.without, bare]
  · rw [row, if_neg (by omega), if_neg (by omega)]
  · have inside := sound.cursor.1
    exact gone.col (by omega)

/- The buffer after `n` deletions of the cursor's line, after each of which the cursor climbs. Those that are
left when it has come to the first row delete the rows below. -/
structure DeletesUp (b : Buffer) (n : Nat) (later : Buffer) : Prop where
  follows : b.Follows later
  lines : later.document.lines =
    b.document.without (b.cursor.row + 1 - n) (max (b.cursor.row + 1) n)
  row : later.cursor.row = b.cursor.row - n
  col : 0 < n → later.cursor.col = 0

theorem deletesUpNone {b : Buffer} (sound : b.Sound) : b.DeletesUp 0 b where
  follows := followsRefl sound
  lines := by
    rw [Nat.sub_zero, Nat.max_eq_left (Nat.zero_le _)]
    exact (Document.withoutNone sound.document _).symm
  row := rfl
  col none := absurd none (Nat.lt_irrefl 0)

theorem deletesUpNext {b c : Buffer} {n : Nat} (sound : b.Sound) (gone : b.DeletesUp n c) :
    (deleteLine true).Ends c fun _ later => b.DeletesUp (n + 1) later := by
  have inside := sound.cursor.1
  refine Run.endsMono (deleteLineErases gone.follows.sound true) fun _ later erases => ?_
  refine ⟨gone.follows.trans erases.follows, ?_, ?_, fun _ => congrArg Cursor.col erases.cursor⟩
  · rw [erases.lines, gone.lines, gone.row]
    by_cases climbs : n ≤ b.cursor.row
    · have first : b.cursor.row + 1 - n = b.cursor.row - n + 1 := by omega
      have past : max (b.cursor.row + 1) n = max (b.cursor.row + 1) (n + 1) := by omega
      rw [first, past, Document.withoutBefore _ (by omega), Nat.add_sub_add_right]
    · have first : b.cursor.row + 1 - n = b.cursor.row - n := by omega
      have past : max (b.cursor.row + 1) (n + 1) = max (b.cursor.row + 1) n + 1 := by omega
      rw [first, past, Document.withoutBehind _ (by omega), Nat.add_sub_add_right]
  · rw [erases.cursor]
    simp only [gone.row, if_true]
    omega

end Buffer

end ModalNotes
