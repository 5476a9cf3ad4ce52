import ModalNotes.Buffer.Motion
import ModalNotes.Proofs.Position

/-! Words end and begin inside their line, so every motion leads from a position of the document to a
position of the document. -/
namespace ModalNotes

namespace Text

theorem skipBlankLe {line : Text} {col : Nat} (h : col ≤ line.length) :
    line.skipBlank col ≤ line.length := by
  have run := (List.takeWhile_sublist isBlank (l := line.drop col)).length_le
  rw [List.length_drop] at run
  simp only [skipBlank]
  omega

theorem skipRunLe {line : Text} {col : Nat} (h : col ≤ line.length) :
    line.skipRun col ≤ line.length := by
  unfold skipRun
  split
  · exact h
  · rename_i c rest cut
    have size := congrArg List.length cut
    have run := (List.takeWhile_sublist (CharClass.of · == CharClass.of c) (l := rest)).length_le
    rw [List.length_drop, List.length_cons] at size
    omega

theorem wordEndLe {line : Text} {col : Nat} (h : col ≤ line.length) :
    line.wordEnd col ≤ line.length := skipRunLe (skipBlankLe h)

theorem leWordEnd (line : Text) (col : Nat) : col ≤ line.wordEnd col := by
  simp only [wordEnd, skipRun, skipBlank]
  split <;> omega

theorem wordBeginLe (line : Text) (col : Nat) : line.wordBegin col ≤ line.length := by
  have blanks := (List.dropWhile_sublist isBlank (l := (line.take col).reverse)).length_le
  rw [List.length_reverse, List.length_take] at blanks
  unfold wordBegin
  split
  · exact Nat.zero_le _
  · rename_i c rest cut
    have run := (List.dropWhile_sublist (CharClass.of · == CharClass.of c) (l := rest)).length_le
    rw [cut, List.length_cons] at blanks
    omega

end Text

namespace Document

theorem lineOk {d : Document} {row : Nat} (inside : row < d.lineCount) :
    ∃ line, d.line? row = .ok line ∧ d.lines[row]? = some line ∧ line.length = d.width row := by
  obtain ⟨line, found, -, size⟩ := someLine inside
  exact ⟨line, by simp only [line?, found], found, size.symm⟩

theorem lineFound {d : Document} {row : Nat} {line : Text} (found : d.line? row = .ok line) :
    row < d.lineCount ∧ line.length = d.width row := by
  by_cases inside : row < d.lineCount
  · obtain ⟨own, ok, -, size⟩ := lineOk inside
    cases found.symm.trans ok
    exact ⟨inside, size⟩
  · simp [line?, List.getElem?_eq_none (Nat.le_of_not_lt inside)] at found

theorem lineLengthOk {d : Document} {row : Nat} (inside : row < d.lineCount) :
    d.lineLength row = .ok (d.width row) := by
  obtain ⟨line, ok, -, size⟩ := lineOk inside
  rw [lineLength, ok, ← size]
  rfl

theorem shownLineOk {d : Document} {row : Nat} (inside : row < d.lineCount) :
    ∃ line, d.shownLine? row = .ok line ∧ line.length = d.width row := by
  obtain ⟨line, -, found, size⟩ := lineOk inside
  exact ⟨line, by simp only [shownLine?, found], size⟩

theorem holdsIn {d : Document} {c : Cursor} (h : d.Holds c) {col : Nat} (short : col ≤ d.width c.row) :
    d.Holds ⟨c.row, col⟩ := ⟨h.1, short⟩

theorem nextWordHolds {d : Document} {c : Cursor} (h : d.Holds c) :
    ∃ target, d.nextWord c = .ok target ∧ d.Holds target := by
  obtain ⟨line, ok, size⟩ := shownLineOk h.1
  simp only [nextWord, ok]
  split
  · rename_i short
    exact ⟨_, rfl, holdsIn h (by omega)⟩
  · split
    · rename_i next below
      have inside : c.row + 1 < d.lineCount := (List.getElem?_eq_some_iff.mp below).1
      obtain ⟨line', found, -, size'⟩ := someLine inside
      cases found.symm.trans below
      have first : next.skipBlank 0 ≤ next.length := Text.skipBlankLe (Nat.zero_le _)
      exact ⟨_, rfl, inside, by simpa only [size'] using first⟩
    · exact ⟨_, rfl, holdsIn h (by omega)⟩

theorem prevWordHolds {d : Document} {c : Cursor} (sound : d.Sound) (h : d.Holds c) :
    ∃ target, d.prevWord c = .ok target ∧ d.Holds target := by
  obtain ⟨row, col⟩ := c
  have inside := h.1
  simp only at inside
  unfold prevWord
  split
  · exact ⟨_, rfl, lineCountPos sound, Nat.zero_le _⟩
  · rename_i above _ _
    have inside' : above < d.lineCount := by simp_all; omega
    obtain ⟨line, ok, size⟩ := shownLineOk inside'
    refine ⟨⟨above, line.wordBegin line.length⟩, by rw [ok]; rfl, inside', ?_⟩
    exact size ▸ Text.wordBeginLe line line.length
  · obtain ⟨line, ok, size⟩ := shownLineOk inside
    refine ⟨⟨row, line.wordBegin col⟩, by rw [ok]; rfl, inside, ?_⟩
    exact size ▸ Text.wordBeginLe line col

end Document

theorem Motion.targetHolds (m : Motion) {d : Document} {c : Cursor} (sound : d.Sound)
    (h : d.Holds c) : ∃ target, m.target d c = .ok target ∧ d.Holds target := by
  obtain ⟨line, ok, size⟩ := Document.shownLineOk h.1
  have short := h.2
  cases m with
  | forward => exact ⟨_, by rw [target, ok]; rfl, Document.holdsIn h (by omega)⟩
  | back => exact ⟨_, rfl, Document.holdsIn h (by omega)⟩
  | up => exact ⟨_, rfl, Document.clampHolds sound _ _⟩
  | down => exact ⟨_, rfl, Document.clampHolds sound _ _⟩
  | wordForward => exact Document.nextWordHolds h
  | wordBack => exact Document.prevWordHolds sound h
  | lineHead => exact ⟨_, rfl, Document.holdsIn h (Nat.zero_le _)⟩
  | lineEnd => exact ⟨_, by rw [target, ok]; rfl, Document.holdsIn h (by omega)⟩
  | top => exact ⟨_, rfl, Document.clampHolds sound _ _⟩
  | bottom => exact ⟨_, rfl, Document.clampHolds sound _ _⟩

end ModalNotes
