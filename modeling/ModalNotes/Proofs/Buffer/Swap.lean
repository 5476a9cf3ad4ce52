import ModalNotes.Proofs.Buffer.Kill
import ModalNotes.Proofs.Buffer.Line

/-! A line deleted and pasted again. It comes back below the line that has taken its place, or at the end if it
was the last one. Only an empty line does not come back: the register holds it, but with no text in it there
is nothing to paste. -/
namespace ModalNotes

theorem Document.lineInserted {d : Document} {row : Nat} {line : Text} (sound : d.Sound)
    (inside : row < d.lineCount) (clean : '\n' ∉ line) :
    (d.spliced (d.start row + d.width row) (d.start row + d.width row) ('\n' :: line)).lines =
      d.lines.take (row + 1) ++ line :: d.lines.drop (row + 1) := by
  have holds : d.Holds ⟨row, d.width row⟩ := ⟨inside, Nat.le_refl _⟩
  obtain ⟨own, found, -, size⟩ := someLine inside
  have upto : d.lines.take (row + 1) = d.lines.take row ++ [own] := by
    rw [List.take_add_one, found]
    rfl
  have front : d.text.take (d.start row + d.width row) = Text.unlines (d.lines.take row ++ [own]) := by
    rw [textTake holds]
    simp [found, size]
  have back : d.text.drop (d.start row + d.width row) = behind (d.lines.drop (row + 1)) := by
    rw [textDrop holds]
    simp [found, size]
  have above : ∀ l ∈ d.lines.take row ++ [own], '\n' ∉ l := by
    rw [← upto]
    exact fun l member => sound.clean l (List.mem_of_mem_take member)
  have below : ∀ l ∈ line :: d.lines.drop (row + 1), '\n' ∉ l := by
    intro l member
    rcases List.mem_cons.mp member with rfl | old
    · exact clean
    · exact sound.clean l (List.mem_of_mem_drop old)
  have pieces : Text.lines ('\n' :: (line ++ behind (d.lines.drop (row + 1)))) =
      [] :: line :: d.lines.drop (row + 1) := by
    rw [← unlinesBehind, Text.lines, Text.splitOn, if_pos rfl]
    exact congrArg (List.cons []) (Text.linesUnlines (List.cons_ne_nil _ _) below)
  have joined := Text.linesAppend above pieces
  rw [spliced, front, back, upto]
  simpa [replaceText] using joined

namespace Buffer

variable {b : Buffer} {line : Text}

theorem deleteLineYanks (sound : b.Sound) (several : 1 < b.document.lineCount)
    (found : b.document.lines[b.cursor.row]? = some line) (moveUp : Bool) :
    (deleteLine moveUp).Ends b fun _ later =>
      later.registers.read RegisterBank.unnamed = Register.linewise line := by
  have ok : b.document.line? b.cursor.row = .ok line := by simp only [Document.line?, found]
  obtain ⟨e, deletion⟩ : ∃ e, lineDeletion b.document b.cursor.row line = .ok e :=
    lineDeletionOk sound.cursor.1
  unfold deleteLine
  rw [Run.endsBind, Run.endsGet, Run.endsBind, Run.endsOfExcept]
  refine ⟨line, ok, ?_⟩
  split
  · rename_i nothing
    have single := of_decide_eq_true (Bool.and_eq_true_iff.mp nothing).1
    omega
  · rw [Run.endsBind, Run.endsOfExcept]
    refine ⟨e, deletion, ?_⟩
    rw [Run.endsBind]
    refine Run.endsMono (safeEdit e b sound) fun _ middle _ => ?_
    rw [Run.endsBind, Run.endsModify, Run.endsPure]
    dsimp only
    split <;> exact RegisterBank.readWritten middle.registers RegisterBank.unnamed (Register.linewise line)

theorem linePasted (sound : b.Sound) (yanked : b.registers.read RegisterBank.unnamed = Register.linewise line)
    (clean : '\n' ∉ line) (some : line ≠ []) :
    paste.Ends b fun _ later =>
      later.document.lines =
        b.document.lines.take (b.cursor.row + 1) ++ line :: b.document.lines.drop (b.cursor.row + 1) ∧
      later.cursor = ⟨b.cursor.row + 1, 0⟩ := by
  have inside := sound.cursor.1
  have nonempty : (Register.linewise line).text.isEmpty = false := List.isEmpty_eq_false_iff.mpr some
  have kind : (Register.linewise line).isLinewise = true := rfl
  unfold paste
  rw [Run.endsBind, Run.endsGet]
  simp only [yanked]
  rw [nonempty, if_neg Bool.false_ne_true, if_pos kind, Run.endsBind, Run.endsOfExcept]
  refine ⟨_, Document.lineLengthOk inside, ?_⟩
  rw [Run.endsBind, Run.endsOfExcept]
  refine ⟨_, Document.offsetOk (holdsWidth sound), ?_⟩
  rw [Run.endsBind]
  refine Run.endsMono (editsExactly sound _) fun _ later edits => Run.endsPure.mpr ?_
  have lines : later.document.lines =
      b.document.lines.take (b.cursor.row + 1) ++ line :: b.document.lines.drop (b.cursor.row + 1) := by
    rw [edits.document]
    exact Document.lineInserted sound.document inside clean
  have below : later.document.Holds ⟨b.cursor.row + 1, 0⟩ := by
    refine ⟨?_, Nat.zero_le _⟩
    rw [Document.lineCount] at inside
    rw [Document.lineCount, lines, List.length_append, List.length_take, List.length_cons]
    dsimp only
    omega
  have place := Document.clampHeld below
  rw [edits.document] at place
  exact ⟨lines, edits.cursor.trans place⟩

theorem emptyLinePasted (yanked : b.registers.read RegisterBank.unnamed = Register.linewise []) :
    paste.Ends b fun pasted later => pasted = false ∧ later = b := by
  unfold paste
  rw [Run.endsBind, Run.endsGet]
  simp only [yanked]
  exact Run.endsPure.mpr ⟨rfl, rfl⟩

structure Swaps (b : Buffer) (above below : List Text) (line : Text) (gone later : Buffer) : Prop where
  deleted : gone.document.lines = above ++ below
  yanked : gone.registers.read RegisterBank.unnamed = Register.linewise line
  last : line ≠ [] → below = [] → later.document.lines = above ++ [line] ∧ later.cursor = ⟨above.length, 0⟩
  inner : line ≠ [] → ∀ next rest, below = next :: rest →
    later.document.lines = above ++ next :: line :: rest ∧ later.cursor = ⟨above.length + 1, 0⟩
  lost : line = [] → later = gone

theorem deletePasteSwaps {above below : List Text} (sound : b.Sound)
    (lines : b.document.lines = above ++ line :: below) (row : b.cursor.row = above.length)
    (several : above ++ below ≠ []) :
    Swaps b above below line (deleteLine false b).state (paste (deleteLine false b).state).state := by
  have found : b.document.lines[b.cursor.row]? = some line := by rw [lines, row]; simp
  have count : b.document.lineCount = above.length + below.length + 1 := by
    rw [Document.lineCount, lines, List.length_append, List.length_cons]
    omega
  have more : 0 < above.length + below.length := by
    rw [← List.length_append]
    exact List.length_pos_iff.mpr several
  have clean : '\n' ∉ line := sound.document.clean line (List.mem_of_getElem? found)
  obtain ⟨_, -, erases, yanked⟩ :=
    Run.endsBoth (deleteLineErases sound false) (deleteLineYanks sound (by omega) found false)
  have deleted : (deleteLine false b).state.document.lines = above ++ below := by
    rw [erases.lines, lines, row, List.eraseIdx_append_of_length_le (Nat.le_refl _), Nat.sub_self]
    exact Document.ofLinesNonempty several
  have place : (deleteLine false b).state.cursor.row = min above.length (above.length + below.length - 1) := by
    rw [erases.cursor, row, Document.lastRow, ← Document.lineCount, count]
    rfl
  have back : line ≠ [] → _ := fun some => linePasted erases.follows.sound yanked clean some
  refine ⟨deleted, yanked, fun some none => ?_, fun some next rest below => ?_, fun none => ?_⟩
  · obtain ⟨_, -, pasted, cursor⟩ := back some
    subst none
    simp only [List.length_nil, Nat.add_zero] at more place
    have behind : (deleteLine false b).state.cursor.row + 1 = above.length := by omega
    rw [behind, deleted, List.append_nil, List.take_length, List.drop_length] at pasted
    rw [behind] at cursor
    exact ⟨pasted, cursor⟩
  · obtain ⟨_, -, pasted, cursor⟩ := back some
    subst below
    rw [List.length_cons] at place
    have same : (deleteLine false b).state.cursor.row = above.length := by omega
    rw [same, deleted, List.take_length_add_append, List.drop_length_add_append, List.take_succ_cons,
      List.take_zero, List.drop_succ_cons, List.drop_zero, List.append_assoc, List.singleton_append] at pasted
    rw [same] at cursor
    exact ⟨pasted, cursor⟩
  · subst none
    obtain ⟨_, -, -, same⟩ := emptyLinePasted yanked
    exact same

end Buffer

end ModalNotes
