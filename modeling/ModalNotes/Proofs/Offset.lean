import ModalNotes.Proofs.Position

/-! Cursors and offsets name the same places of a document: every cursor stands at an offset of the text and
is found there again, and every offset of the text is the place of one cursor. Behind a cursor come the
rest of its line and the lines below. -/
namespace ModalNotes

namespace Cursor

def Precedes (a b : Cursor) : Prop := a.le b = true ∧ a ≠ b

theorem precedesIff {a b : Cursor} : a.Precedes b ↔ a.row < b.row ∨ a.row = b.row ∧ a.col < b.col := by
  obtain ⟨row, col⟩ := a
  obtain ⟨row', col'⟩ := b
  simp [Precedes, le]
  omega

theorem precedesAsymm (a b : Cursor) (h : a.Precedes b) : ¬ b.Precedes a := by
  rw [precedesIff] at h ⊢
  omega

theorem precedesTotal (a b : Cursor) : a.Precedes b ∨ a = b ∨ b.Precedes a := by
  obtain ⟨row, col⟩ := a
  obtain ⟨row', col'⟩ := b
  simp only [precedesIff, mk.injEq]
  omega

end Cursor

namespace Document

def behind (below : List Text) : Text := below.foldr (fun line after => '\n' :: (line ++ after)) []

theorem unlinesBehind (line : Text) (below : List Text) :
    Text.unlines (line :: below) = line ++ behind below := by
  induction below generalizing line with
  | nil => simp [Text.unlines, Text.joinWith, behind]
  | cons next below ih =>
    rw [unlinesCons line (List.cons_ne_nil next below), ih next]
    rfl

theorem dropInUnlines {ls : List Text} {version row col : Nat} (inside : row < ls.length)
    (short : col ≤ (ls.getD row []).length) :
    (Text.unlines ls).drop (start ⟨ls, version⟩ row + col) =
      (ls.getD row []).drop col ++ behind (ls.drop (row + 1)) := by
  induction ls generalizing row with
  | nil => simp at inside
  | cons line below ih =>
    cases row with
    | zero =>
      simp only [List.getD_cons_zero] at short
      have head : start ⟨line :: below, version⟩ 0 = 0 := rfl
      rw [head, Nat.zero_add, unlinesBehind, List.drop_append_of_le_length short]
      rfl
    | succ row =>
      simp only [List.length_cons, Nat.add_lt_add_iff_right] at inside
      simp only [List.getD_cons_succ] at short
      have size : line.length + 1 + start ⟨below, version⟩ row + col =
          line.length + (start ⟨below, version⟩ row + col + 1) := by omega
      rw [startCons, unlinesCons line (List.ne_nil_of_length_pos (by omega)), size,
        List.drop_length_add_append, List.drop_succ_cons, ih inside short]
      rfl

theorem textDrop {d : Document} {c : Cursor} (h : d.Holds c) :
    d.text.drop (d.start c.row + c.col) =
      (d.lines.getD c.row []).drop c.col ++ behind (d.lines.drop (c.row + 1)) :=
  dropInUnlines h.1 h.2

theorem locateInCons (line : Text) {below : List Text} (more : below ≠ []) (n : Nat) :
    locateIn (line :: below) n =
      if n ≤ line.length then ⟨0, n⟩ else (locateIn below (n - (line.length + 1))).down := by
  obtain ⟨next, rest, rfl⟩ := List.exists_cons_of_ne_nil more
  rfl

theorem locateInOffset {ls : List Text} {version row col : Nat} (inside : row < ls.length)
    (short : col ≤ (ls.getD row []).length) :
    locateIn ls (start ⟨ls, version⟩ row + col) = ⟨row, col⟩ := by
  induction ls generalizing row with
  | nil => simp at inside
  | cons line below ih =>
    cases row with
    | zero =>
      simp only [List.getD_cons_zero] at short
      have head : start ⟨line :: below, version⟩ 0 = 0 := rfl
      rw [head, Nat.zero_add]
      cases below with
      | nil => rw [locateIn, Nat.min_eq_left short]
      | cons next more => rw [locateInCons line (List.cons_ne_nil next more), if_pos short]
    | succ row =>
      simp only [List.length_cons, Nat.add_lt_add_iff_right] at inside
      simp only [List.getD_cons_succ] at short
      have further : ¬ line.length + 1 + start ⟨below, version⟩ row + col ≤ line.length := by omega
      have rest : line.length + 1 + start ⟨below, version⟩ row + col - (line.length + 1) =
          start ⟨below, version⟩ row + col := by omega
      rw [startCons, locateInCons line (List.ne_nil_of_length_pos (by omega)), if_neg further, rest,
        ih inside short]
      rfl

theorem locateOffset {d : Document} {c : Cursor} (h : d.Holds c) :
    d.locate (d.start c.row + c.col) = c := locateInOffset h.1 h.2

theorem offsetLocateIn {ls : List Text} (version : Nat) {n : Nat} (inside : n ≤ (Text.unlines ls).length) :
    start ⟨ls, version⟩ (locateIn ls n).row + (locateIn ls n).col = n := by
  induction ls generalizing n with
  | nil => simpa [Text.unlines, Text.joinWith, locateIn, start, eq_comm] using inside
  | cons line below ih =>
    cases below with
    | nil =>
      have only : n ≤ line.length := inside
      simpa [locateIn, start] using Nat.min_eq_left only
    | cons next more =>
      have some : next :: more ≠ [] := List.cons_ne_nil next more
      rw [locateInCons line some]
      split
      · exact Nat.zero_add n
      · rename_i further
        rw [unlinesCons line some, List.length_append, List.length_cons] at inside
        have rest := ih (by omega : n - (line.length + 1) ≤ (Text.unlines (next :: more)).length)
        simp only [Cursor.down, startCons]
        omega

theorem offsetLocate {d : Document} {n : Nat} (inside : n ≤ d.text.length) :
    d.start (d.locate n).row + (d.locate n).col = n := offsetLocateIn d.version inside

theorem offsetBelow {d : Document} {c c' : Cursor} (h : d.Holds c) (below : c.row < c'.row) :
    d.start c.row + d.width c.row < d.start c'.row + c'.col := by
  have next := startSucc h.1
  have mono := d.startMono (by omega : c.row + 1 ≤ c'.row)
  omega

theorem offsetLeIff {d : Document} {c c' : Cursor} (h : d.Holds c) (h' : d.Holds c') :
    c.le c' = true ↔ d.start c.row + c.col ≤ d.start c'.row + c'.col := by
  refine ⟨offsetMono h, fun order => ?_⟩
  apply Classical.byContradiction
  intro behind
  simp only [Cursor.le, Bool.or_eq_true, Bool.and_eq_true, decide_eq_true_eq, beq_iff_eq] at behind
  by_cases lower : c'.row < c.row
  · have past := offsetBelow h' lower
    have short := h'.2
    omega
  · have level : c.row = c'.row := by omega
    rw [level] at order
    omega

theorem locateRowMono {d : Document} (sound : d.Sound) {m n : Nat} (le : m ≤ n)
    (inside : n ≤ d.text.length) : (d.locate m).row ≤ (d.locate n).row := by
  have head := offsetLocate (Nat.le_trans le inside)
  have tail := offsetLocate inside
  apply Nat.le_of_not_lt
  intro above
  have order := offsetBelow (locateHolds sound n) above
  have short := (locateHolds sound n).2
  omega

theorem offsetsApart {d : Document} {a b : Cursor} (h : d.Holds a) (h' : d.Holds b)
    (same : d.start a.row + a.col = d.start b.row + b.col) : a = b := by
  rw [← locateOffset h, same, locateOffset h']

theorem precedesOffset {d : Document} {a b : Cursor} (h : d.Holds a) (h' : d.Holds b) :
    a.Precedes b ↔ d.start a.row + a.col < d.start b.row + b.col := by
  rw [Cursor.Precedes, offsetLeIff h h']
  constructor
  · intro precedes
    exact Nat.lt_of_le_of_ne precedes.1 fun same => precedes.2 (offsetsApart h h' same)
  · intro less
    exact ⟨Nat.le_of_lt less, fun same => absurd less (same ▸ Nat.lt_irrefl _)⟩

theorem startOffset {d : Document} {row : Nat} (inside : row < d.lineCount) (col : Nat) :
    d.offset ⟨row, col⟩ = .ok (d.start row + col) := if_pos (Nat.le_of_lt inside)

theorem ofLinesSound {lines : List Text} (clean : ∀ line ∈ lines, '\n' ∉ line) : (ofLines lines).Sound := by
  cases lines with
  | nil => exact ⟨by simp [ofLines], by simp [ofLines]⟩
  | cons line below => exact ⟨by simp [ofLines], by simpa [ofLines] using clean⟩

theorem lineInText {d : Document} {row : Nat} {line : Text} (found : d.lines[row]? = some line) (col : Nat) :
    d.text[d.start row + col]? = (line ++ behind (d.lines.drop (row + 1)))[col]? := by
  have inside : row < d.lines.length := (List.getElem?_eq_some_iff.mp found).1
  have head : d.Holds ⟨row, 0⟩ := ⟨inside, Nat.zero_le _⟩
  have own : d.lines.getD row [] = line := by simp [found]
  have rest := textDrop head
  simp only [own, Nat.add_zero, List.drop_zero] at rest
  rw [← List.getElem?_drop, rest]

theorem endInText {d : Document} {row : Nat} {line : Text} (found : d.lines[row]? = some line) :
    d.text[d.start row + line.length]? = if row < d.lastRow then some '\n' else none := by
  have first : d.text[d.start row + line.length]? = (behind (d.lines.drop (row + 1)))[0]? := by
    rw [lineInText found, List.getElem?_append_right (Nat.le_refl _), Nat.sub_self]
  rw [first, lastRow]
  split
  · rename_i further
    have next : row + 1 < d.lines.length := by omega
    rw [List.drop_eq_getElem_cons next]
    rfl
  · rename_i last
    have none : d.lines.length ≤ row + 1 := by omega
    rw [List.drop_eq_nil_of_le none]
    rfl

/- Cursors and offsets are two names of the same places. Each cursor of a document stands at one offset of the
text and each offset of the text is the place of one cursor, in the same order. At the offset of a cursor
stands the character under it, or the line end of a line that is not the last. Every text can be cut into
such a document and comes out again. -/
theorem offsetsNameCursors :
    (∀ d : Document, d.Sound →
      (∀ c, d.Holds c → ∃ n, d.offset c = .ok n ∧ n ≤ d.text.length ∧ d.locate n = c) ∧
      (∀ n, n ≤ d.text.length → d.Holds (d.locate n) ∧ d.offset (d.locate n) = .ok n) ∧
      (∀ c c' n n', d.Holds c → d.Holds c' → d.offset c = .ok n → d.offset c' = .ok n' →
        (c.Precedes c' ↔ n < n')) ∧
      ∀ row l, d.lines[row]? = some l →
        (∀ col c, l[col]? = some c → ∃ n, d.offset ⟨row, col⟩ = .ok n ∧ d.text[n]? = some c) ∧
        ∃ n, d.offset ⟨row, l.length⟩ = .ok n ∧
          d.text[n]? = if row < d.lastRow then some '\n' else none) ∧
    (∀ lines, (∀ line ∈ lines, '\n' ∉ line) → (ofLines lines).Sound) ∧
    ∀ d s, (replaceText d s).text = s ∧ (replaceText d s).Sound := by
  refine ⟨?_, fun lines clean => ofLinesSound clean, fun d s => ⟨Text.unlines_lines s, soundReplace d s⟩⟩
  intro d sound
  refine ⟨?_, ?_, ?_, ?_⟩
  · intro c holds
    exact ⟨d.start c.row + c.col, offsetOk holds, offsetLe holds, locateOffset holds⟩
  · intro n inside
    have holds := locateHolds sound n
    have ok := offsetOk holds
    rw [offsetLocate inside] at ok
    exact ⟨holds, ok⟩
  · intro c c' n n' holds holds' ok ok'
    cases (offsetOk holds).symm.trans ok
    cases (offsetOk holds').symm.trans ok'
    exact precedesOffset holds holds'
  · intro row l found
    have inside : row < d.lineCount := (List.getElem?_eq_some_iff.mp found).1
    refine ⟨?_, d.start row + l.length, startOffset inside _, endInText found⟩
    intro col c here
    have short : col < l.length := (List.getElem?_eq_some_iff.mp here).1
    refine ⟨d.start row + col, startOffset inside col, ?_⟩
    rw [lineInText found, List.getElem?_append_left short, here]

theorem emptyLinePlace :
    let d := ofText "ab\n\nc".toList
    d.Sound ∧ (d.Holds ⟨1, 0⟩ ∧ d.offset ⟨1, 0⟩ = .ok 3 ∧ d.locate 3 = ⟨1, 0⟩) ∧ d.text[3]? = some '\n' ∧
      Cursor.Precedes ⟨0, 2⟩ ⟨1, 0⟩ := by
  intro d
  obtain ⟨places, lines, -⟩ := offsetsNameCursors
  have sound : d.Sound := lines ["ab".toList, [], ['c']] (by decide)
  obtain ⟨-, offsets, order, chars⟩ := places d sound
  obtain ⟨holds, found⟩ := offsets 3 (by decide)
  have place : d.locate 3 = ⟨1, 0⟩ := rfl
  rw [place] at holds found
  obtain ⟨-, n, ok, newline⟩ := chars 1 [] rfl
  cases found.symm.trans ok
  have above : d.Holds ⟨0, 2⟩ := ⟨by decide, by decide⟩
  have earlier := (order ⟨0, 2⟩ ⟨1, 0⟩ 2 3 above holds rfl found).mpr (by decide)
  exact ⟨sound, ⟨holds, found, place⟩, newline, earlier⟩

end Document

end ModalNotes
