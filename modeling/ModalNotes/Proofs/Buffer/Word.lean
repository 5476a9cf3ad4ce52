import Mathlib.Logic.Function.Iterate
import ModalNotes.Proofs.Buffer.Basic
import ModalNotes.Proofs.Motion
import ModalNotes.Proofs.Offset
import ModalNotes.Proofs.Word

/-! Word by word. A word motion goes on to the next word start, or to the end or the head of a line where there
is none, and passes over no other; repeated, it comes to the end or to the head of the document. -/
namespace ModalNotes

def Cursor.Before (a b : Cursor) : Prop := a.row < b.row ∨ a.row = b.row ∧ a.col < b.col

namespace Cursor

theorem beforeIrrefl {c : Cursor} : ¬ c.Before c := by
  rintro (above | ⟨-, before⟩)
  · exact Nat.lt_irrefl _ above
  · exact Nat.lt_irrefl _ before

theorem originFirst {c : Cursor} : ¬ c.Before ⟨0, 0⟩ := by
  rintro (above | ⟨-, before⟩)
  · exact Nat.not_lt_zero _ above
  · exact Nat.not_lt_zero _ before

variable {p : Cursor} {row left right : Nat}

theorem betweenLevel (after : Before ⟨row, left⟩ p) (before : p.Before ⟨row, right⟩) :
    p.row = row ∧ left < p.col ∧ p.col < right := by
  simp only [Before] at after before
  omega

theorem betweenNext (after : Before ⟨row, left⟩ p) (before : p.Before ⟨row + 1, right⟩) :
    p.row = row ∧ left < p.col ∨ p.row = row + 1 ∧ p.col < right := by
  simp only [Before] at after before
  omega

end Cursor

namespace Document

def WordStart (d : Document) (c : Cursor) : Prop :=
  ∃ line, d.lines[c.row]? = some line ∧ line.StartsWord c.col

def ending (d : Document) : Cursor := ⟨d.lastRow, d.width d.lastRow⟩

/- A step to the next word start; if the line has none, to the first character below that is no blank, or to
the end of that line if all of it is blank; and to the end of the last line. -/
structure WordForth (d : Document) (c target : Cursor) : Prop where
  holds : d.Holds target
  stays : c = d.ending → target = c
  goes : c ≠ d.ending → c.Before target
  passes : ∀ p : Cursor, c.Before p → p.Before target → ¬ d.WordStart p
  lands : d.WordStart target ∨ target = d.ending ∨
    target.row = c.row + 1 ∧ target.col = d.width target.row ∧
      ∀ line, d.lines[target.row]? = some line → ∀ x ∈ line, Text.isBlank x = true

structure WordBack (d : Document) (c target : Cursor) : Prop where
  holds : d.Holds target
  stays : c = ⟨0, 0⟩ → target = c
  goes : c ≠ ⟨0, 0⟩ → target.Before c
  passes : ∀ p : Cursor, target.Before p → p.Before c → ¬ d.WordStart p
  lands : d.WordStart target ∨ target.col = 0

theorem beforeOffset {d : Document} {c c' : Cursor} (h : d.Holds c) (before : c.Before c') :
    d.start c.row + c.col < d.start c'.row + c'.col := by
  rcases before with above | ⟨level, left⟩
  · have past := offsetBelow h above
    have short := h.2
    omega
  · rw [level]
    omega

theorem noStart {d : Document} {row col : Nat} {line : Text} (found : d.lines[row]? = some line)
    (free : ¬ line.StartsWord col) : ¬ d.WordStart ⟨row, col⟩ := by
  rintro ⟨line', found', starts⟩
  cases found.symm.trans found'
  exact free starts

theorem widthFound {d : Document} {row : Nat} {line : Text} (found : d.lines[row]? = some line) :
    d.width row = line.length := by
  simp [width, found]

section

variable {d : Document} {row col : Nat} {line : Text} (h : d.Holds ⟨row, col⟩)
  (found : d.lines[row]? = some line)
include found

theorem wordForthBelow {next : Text} (holds : d.Holds ⟨row + 1, next.skipBlank 0⟩)
    (rest : ∀ i, col < i → ¬ line.StartsWord i) (below : d.lines[row + 1]? = some next) :
    d.WordForth ⟨row, col⟩ ⟨row + 1, next.skipBlank 0⟩ := by
  refine ⟨holds, fun edge => ?_, fun _ => .inl (Nat.lt_succ_self row), ?_, ?_⟩
  · have inside := (List.getElem?_eq_some_iff.mp below).1
    have edge' := (Cursor.mk.inj edge).1
    simp only [lastRow] at edge'
    omega
  · rintro ⟨row', col'⟩ after before
    obtain ⟨rfl, right⟩ | ⟨rfl, left⟩ := Cursor.betweenNext after before
    · exact noStart found (rest col' right)
    · exact noStart below (Text.skipBlankPasses (Nat.zero_le _) left)
  · by_cases inside : next.skipBlank 0 < next.length
    · have head : ∀ x, next[0]? = some x → Text.isBlank x = false → next.StartsWord 0 := fun x first solid =>
        ⟨x, first, solid, .inl rfl⟩
      exact .inl ⟨next, below, Text.skipBlankStarts inside head⟩
    · refine .inr (.inr ⟨rfl, ?_, fun line' found' x member => ?_⟩)
      · have short := holds.2
        simp only [widthFound below] at short ⊢
        omega
      · cases below.symm.trans found'
        obtain ⟨i, inside', rfl⟩ := List.getElem_of_mem member
        obtain ⟨y, here, blank⟩ := Text.skipHolds (p := Text.isBlank) (Nat.zero_le i)
          (show i < next.skipBlank 0 by omega)
        cases here.symm.trans (List.getElem?_eq_getElem inside')
        exact blank

include h

theorem wordForthInside (holds : d.Holds ⟨row, line.nextWordCol col⟩)
    (inside : line.nextWordCol col < line.length) : d.WordForth ⟨row, col⟩ ⟨row, line.nextWordCol col⟩ := by
  obtain ⟨further, starts⟩ := Text.nextWordColStarts inside
  refine ⟨holds, fun edge => ?_, fun _ => .inr ⟨rfl, further⟩, ?_, .inl ⟨line, found, starts⟩⟩
  · have size := widthFound found
    obtain ⟨rfl, rfl⟩ := Cursor.mk.inj edge
    omega
  · rintro ⟨row', col'⟩ after before
    obtain ⟨rfl, right, left⟩ := Cursor.betweenLevel after before
    exact noStart found (Text.nextWordColPasses right left)

theorem wordForthLast (holds : d.Holds ⟨row, line.length⟩) (rest : ∀ i, col < i → ¬ line.StartsWord i)
    (none : d.lines[row + 1]? = none) : d.WordForth ⟨row, col⟩ ⟨row, line.length⟩ := by
  have size := widthFound found
  have bottom : row = d.lastRow := by
    have inside := (List.getElem?_eq_some_iff.mp found).1
    have past := List.getElem?_eq_none_iff.mp none
    simp only [lastRow]
    omega
  have edge : (⟨row, line.length⟩ : Cursor) = d.ending := by rw [ending, ← bottom, size]
  refine ⟨holds, fun same => edge.trans same.symm, fun other => .inr ⟨rfl, ?_⟩, ?_, .inr (.inl edge)⟩
  · refine Nat.lt_of_le_of_ne (size ▸ h.2) fun full => other ?_
    dsimp only at full
    rw [full, edge]
  · rintro ⟨row', col'⟩ after before
    obtain ⟨rfl, right, -⟩ := Cursor.betweenLevel after before
    exact noStart found (rest col' right)

theorem wordBackInside (holds : d.Holds ⟨row, line.wordBegin col⟩) (positive : col ≠ 0) :
    d.WordBack ⟨row, col⟩ ⟨row, line.wordBegin col⟩ := by
  have short : col ≤ line.length := widthFound found ▸ h.2
  refine ⟨holds, fun edge => absurd (Cursor.mk.inj edge).2 positive,
    fun _ => .inr ⟨rfl, Text.wordBeginLt short positive⟩, ?_,
    (Text.wordBeginStarts short).imp_left fun starts => ⟨line, found, starts⟩⟩
  rintro ⟨row', col'⟩ after before
  obtain ⟨rfl, right, left⟩ := Cursor.betweenLevel after before
  exact noStart found (Text.wordBeginPasses short right left)

end

theorem wordBackAbove {d : Document} {row : Nat} {line : Text} (found : d.lines[row]? = some line)
    (holds : d.Holds ⟨row, line.wordBegin line.length⟩) :
    d.WordBack ⟨row + 1, 0⟩ ⟨row, line.wordBegin line.length⟩ := by
  refine ⟨holds, fun edge => absurd (Cursor.mk.inj edge).1 (Nat.succ_ne_zero row),
    fun _ => .inl (Nat.lt_succ_self row), ?_,
    (Text.wordBeginStarts (Nat.le_refl _)).imp_left fun starts => ⟨line, found, starts⟩⟩
  rintro ⟨row', col'⟩ after before
  obtain ⟨rfl, right⟩ | ⟨-, left⟩ := Cursor.betweenNext after before
  · refine noStart found fun starts => ?_
    exact Text.wordBeginPasses (Nat.le_refl _) right starts.inside starts
  · exact absurd left (Nat.not_lt_zero _)

theorem wordForthOk {d : Document} {c : Cursor} (h : d.Holds c) :
    ∃ target, d.nextWord c = .ok target ∧ d.WordForth c target := by
  obtain ⟨row, col⟩ := c
  obtain ⟨line, found, -, -⟩ := someLine h.1
  have shown : d.shownLine? row = .ok line := by simp only [shownLine?, found]
  obtain ⟨target, ok, holds⟩ := nextWordHolds h
  refine ⟨target, ok, ?_⟩
  simp only [nextWord, shown] at ok
  split at ok
  · rename_i inside
    cases ok
    exact wordForthInside h found holds inside
  · rename_i outside
    have rest : ∀ i, col < i → ¬ line.StartsWord i := fun i after starts =>
      Text.nextWordColPasses after (Nat.lt_of_lt_of_le starts.inside (Nat.le_of_not_lt outside)) starts
    split at ok
    · rename_i next below
      cases ok
      exact wordForthBelow found holds rest below
    · rename_i none
      cases ok
      exact wordForthLast h found holds rest none

theorem wordBackOk {d : Document} {c : Cursor} (h : d.Holds c) :
    ∃ target, d.prevWord c = .ok target ∧ d.WordBack c target := by
  obtain ⟨row, col⟩ := c
  unfold prevWord
  split
  · rename_i top head
    dsimp only at top head
    subst top head
    exact ⟨⟨0, 0⟩, rfl, h, fun _ => rfl, fun other => absurd rfl other,
      fun p _ before => absurd before Cursor.originFirst, .inr rfl⟩
  · rename_i above lower head
    dsimp only at lower head
    subst lower head
    obtain ⟨line, found, -, size⟩ := someLine (Nat.lt_of_succ_lt h.1)
    refine ⟨⟨above, line.wordBegin line.length⟩, by simp only [shownLine?, found, Except.map], ?_⟩
    have short := Nat.le_trans (Text.wordBeginLe line line.length) (Nat.le_of_eq size.symm)
    exact wordBackAbove found ⟨Nat.lt_of_succ_lt h.1, short⟩
  · rename_i inner other
    obtain ⟨line, found, -, size⟩ := someLine h.1
    refine ⟨⟨row, line.wordBegin col⟩, by simp only [shownLine?, found, Except.map], ?_⟩
    have short := Nat.le_trans (Text.wordBeginLe line col) (Nat.le_of_eq size.symm)
    refine wordBackInside h found ⟨h.1, short⟩ fun head => ?_
    cases row with
    | zero => exact inner rfl head
    | succ above => exact other above rfl head

end Document

theorem reachesGoal {α : Type} (f : α → α) (inv goal : α → Prop) (measure : α → Nat)
    (step : ∀ a, inv a → ¬ goal a → inv (f a) ∧ measure (f a) < measure a) {a : α} (start : inv a) :
    ∃ n ≤ measure a, inv (f^[n] a) ∧ goal (f^[n] a) := by
  by_cases done : goal a
  · exact ⟨0, Nat.zero_le _, start, done⟩
  · obtain ⟨next, falls⟩ := step a start done
    obtain ⟨n, short, holds, reached⟩ := reachesGoal f inv goal measure step next
    exact ⟨n + 1, by omega, holds, reached⟩
termination_by measure a

namespace Buffer

theorem moveTarget {m : Motion} {b : Buffer} {target : Cursor}
    (ok : m.target b.document b.cursor = .ok target) :
    (move m).Ends b fun moved later =>
      later = { b with cursor := target } ∧ (moved = true ↔ target ≠ b.cursor) := by
  rw [move, Run.endsBind, Run.endsGet, Run.endsBind, Run.endsOfExcept]
  refine ⟨target, ok, ?_⟩
  rw [Run.endsBind, Run.endsPut, Run.endsPure]
  exact ⟨rfl, bne_iff_ne⟩

theorem moveForth {b : Buffer} (held : b.document.Holds b.cursor) :
    (move .wordForward).Ends b fun moved later => ∃ target, later = { b with cursor := target } ∧
      (moved = true ↔ b.cursor ≠ b.document.ending) ∧ b.document.WordForth b.cursor target := by
  obtain ⟨target, ok, forth⟩ := Document.wordForthOk held
  refine Run.endsMono (moveTarget ok) fun moved later ⟨same, tells⟩ => ⟨target, same, tells.trans ?_, forth⟩
  refine not_congr ⟨fun still => ?_, forth.stays⟩
  exact Classical.byContradiction fun other => Cursor.beforeIrrefl (still ▸ forth.goes other)

theorem moveBack {b : Buffer} (held : b.document.Holds b.cursor) :
    (move .wordBack).Ends b fun moved later => ∃ target, later = { b with cursor := target } ∧
      (moved = true ↔ b.cursor ≠ ⟨0, 0⟩) ∧ b.document.WordBack b.cursor target := by
  obtain ⟨target, ok, back⟩ := Document.wordBackOk held
  refine Run.endsMono (moveTarget ok) fun moved later ⟨same, tells⟩ => ⟨target, same, tells.trans ?_, back⟩
  refine not_congr ⟨fun still => ?_, back.stays⟩
  exact Classical.byContradiction fun other => Cursor.beforeIrrefl (still ▸ back.goes other)

def Elsewhere (b later : Buffer) : Prop := ∃ c, b.document.Holds c ∧ later = { b with cursor := c }

theorem movesReach {m : Motion} {b : Buffer} {goal : Cursor} (distance : Cursor → Nat)
    (held : b.document.Holds b.cursor)
    (nearer : ∀ c, b.document.Holds c → c ≠ goal → ∃ target, m.target b.document c = .ok target ∧
      b.document.Holds target ∧ distance target < distance c) :
    ∃ n ≤ distance b.cursor, again (move m) n b = { b with cursor := goal } := by
  have step : ∀ later, b.Elsewhere later → ¬ later.cursor = goal →
      b.Elsewhere (move m later).state ∧ distance (move m later).state.cursor < distance later.cursor := by
    rintro _ ⟨c, holds, rfl⟩ away
    obtain ⟨target, ok, holds', falls⟩ := nearer c holds away
    obtain ⟨_, -, moved, -⟩ := moveTarget (b := { b with cursor := c }) ok
    rw [moved]
    exact ⟨⟨target, holds', rfl⟩, falls⟩
  obtain ⟨n, short, ⟨c, -, only⟩, reached⟩ := reachesGoal (fun later => (move m later).state)
    b.Elsewhere (fun later => later.cursor = goal) (fun later => distance later.cursor) step ⟨b.cursor, held, rfl⟩
  refine ⟨n, short, ?_⟩
  rw [only] at reached
  rw [again, only, ← reached]

/- Word motions go on from word start to word start, and to either end of the document at last. -/
theorem wordMotionsProgress {b : Buffer} (held : b.document.Holds b.cursor) :
    ((move .wordForward).Ends b fun moved later => ∃ target, later = { b with cursor := target } ∧
      (moved = true ↔ b.cursor ≠ b.document.ending) ∧ b.document.WordForth b.cursor target) ∧
    ((move .wordBack).Ends b fun moved later => ∃ target, later = { b with cursor := target } ∧
      (moved = true ↔ b.cursor ≠ ⟨0, 0⟩) ∧ b.document.WordBack b.cursor target) ∧
    (∃ n ≤ b.document.text.length,
      again (move .wordForward) n b = { b with cursor := b.document.ending }) ∧
    ∃ n ≤ b.document.text.length, again (move .wordBack) n b = { b with cursor := ⟨0, 0⟩ } := by
  refine ⟨moveForth held, moveBack held, ?_, ?_⟩
  · obtain ⟨n, short, reached⟩ := movesReach (m := .wordForward)
      (fun c => b.document.text.length - (b.document.start c.row + c.col)) held fun c holds away => by
        obtain ⟨target, ok, forth⟩ := Document.wordForthOk holds
        have further := Document.beforeOffset holds (forth.goes away)
        have inside := Document.offsetLe forth.holds
        exact ⟨target, ok, forth.holds, by omega⟩
    exact ⟨n, Nat.le_trans short (Nat.sub_le _ _), reached⟩
  · obtain ⟨n, short, reached⟩ := movesReach (m := .wordBack)
      (fun c => b.document.start c.row + c.col) held fun c holds away => by
        obtain ⟨target, ok, back⟩ := Document.wordBackOk holds
        exact ⟨target, ok, back.holds, Document.beforeOffset back.holds (back.goes away)⟩
    exact ⟨n, Nat.le_trans short (Document.offsetLe held), reached⟩

def lastWord : Buffer := { document := ⟨["ab, c".toList, "  ".toList, " d".toList], 0⟩, cursor := ⟨0, 4⟩ }

theorem lastWordPassed : lastWord.document.WordForth ⟨0, 4⟩ ⟨1, 2⟩ ∧
    lastWord.document.WordBack ⟨0, 4⟩ ⟨0, 2⟩ ∧
    (∃ n ≤ 11, again (move .wordForward) n lastWord = { lastWord with cursor := ⟨2, 2⟩ }) ∧
    ∃ n ≤ 11, again (move .wordBack) n lastWord = { lastWord with cursor := ⟨0, 0⟩ } := by
  obtain ⟨⟨_, -, target, forth, -, steps⟩, ⟨_, -, target', back, -, steps'⟩, reaches⟩ :=
    wordMotionsProgress (b := lastWord) ⟨by decide, by decide⟩
  have next : (move .wordForward lastWord).state.cursor = ⟨1, 2⟩ := by decide +kernel
  have previous : (move .wordBack lastWord).state.cursor = ⟨0, 2⟩ := by decide +kernel
  rw [forth] at next
  rw [back] at previous
  cases next
  cases previous
  exact ⟨steps, steps', reaches⟩

end Buffer

end ModalNotes
