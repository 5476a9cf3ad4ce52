import ModalNotes.Document

/-! Positions of a document and the offsets they stand for. A cursor that lies in the document cuts its
text in two, and what follows the cut can be exchanged without moving the cursor out of the text. -/
namespace ModalNotes

namespace Text

theorem splitOnCons {sep c : Char} {s h : Text} {t : List Text} (other : c ≠ sep)
    (rest : splitOn sep s = h :: t) : splitOn sep (c :: s) = (c :: h) :: t := by
  simp only [splitOn, if_neg other, rest]

theorem splitOnAppend {sep : Char} {p s h : Text} {t : List Text} (clean : sep ∉ p)
    (rest : splitOn sep s = h :: t) : splitOn sep (p ++ s) = (p ++ h) :: t := by
  induction p with
  | nil => exact rest
  | cons c p ih =>
    simp only [List.mem_cons, not_or] at clean
    exact splitOnCons (Ne.symm clean.1) (ih clean.2)

theorem linesAppend {pre : List Text} {p s h : Text} {t : List Text}
    (clean : ∀ l ∈ pre ++ [p], '\n' ∉ l) (rest : lines s = h :: t) :
    lines (unlines (pre ++ [p]) ++ s) = pre ++ (p ++ h) :: t := by
  induction pre with
  | nil => exact splitOnAppend (clean p (by simp)) rest
  | cons l pre ih =>
    have before := ih fun q member => clean q (List.mem_cons_of_mem l member)
    have shape : unlines (l :: pre ++ [p]) ++ s = l ++ '\n' :: (unlines (pre ++ [p]) ++ s) := by
      cases pre <;> simp [unlines, joinWith]
    have ended : lines ('\n' :: (unlines (pre ++ [p]) ++ s)) = [] :: (pre ++ (p ++ h) :: t) := by
      rw [← before]
      simp [lines, splitOn]
    rw [shape, lines, splitOnAppend (clean l (by simp)) ended, List.append_nil, List.cons_append]

theorem linesUnlines {ls : List Text} (nonempty : ls ≠ []) (clean : ∀ l ∈ ls, '\n' ∉ l) :
    lines (unlines ls) = ls := by
  have parts := List.dropLast_concat_getLast nonempty
  have whole : ∀ l ∈ ls.dropLast ++ [ls.getLast nonempty], '\n' ∉ l := by rw [parts]; exact clean
  have joined := linesAppend whole (s := []) rfl
  simpa [parts] using joined

end Text

@[simp] theorem Cursor.toPointRow (c : Cursor) : c.toPoint.row = c.row := rfl

@[simp] theorem Cursor.toPointCol (c : Cursor) : c.toPoint.col = c.col := rfl

namespace Document

structure Sound (d : Document) : Prop where
  nonempty : d.lines ≠ []
  clean : ∀ line ∈ d.lines, '\n' ∉ line

def Holds (d : Document) (c : Cursor) : Prop := c.row < d.lineCount ∧ c.col ≤ d.width c.row

theorem linesSound (s : Text) (version : Nat) : Sound ⟨s.lines, version⟩ :=
  ⟨Text.splitOn_ne_nil '\n' s, Text.sep_notMem_of_mem_splitOn '\n' s⟩

theorem linesOfText {d d' : Document} (sound : d.Sound) (sound' : d'.Sound) (same : d.text = d'.text) :
    d.lines = d'.lines := by
  rw [← Text.linesUnlines sound.nonempty sound.clean, ← Text.linesUnlines sound'.nonempty sound'.clean]
  exact congrArg Text.lines same

theorem soundOfText (s : Text) : (ofText s).Sound := linesSound s 0

theorem soundReplace (d : Document) (s : Text) : (d.replaceText s).Sound := linesSound s _

theorem someLine {d : Document} {row : Nat} (inside : row < d.lineCount) :
    ∃ line, d.lines[row]? = some line ∧ line ∈ d.lines ∧ d.width row = line.length := by
  refine ⟨d.lines[row], List.getElem?_eq_getElem inside, List.getElem_mem inside, ?_⟩
  rw [width, List.getD_eq_getElem?_getD, List.getElem?_eq_getElem inside, Option.getD_some]

theorem lineCountPos {d : Document} (sound : d.Sound) : 0 < d.lineCount :=
  List.length_pos_iff.mpr sound.nonempty

theorem offsetOk {d : Document} {c : Cursor} (h : d.Holds c) :
    d.offset c = .ok (d.start c.row + c.col) := if_pos (Nat.le_of_lt h.1)

theorem locateInHolds {ls : List Text} (nonempty : ls ≠ []) (version n : Nat) :
    Holds ⟨ls, version⟩ (locateIn ls n) := by
  induction ls generalizing n with
  | nil => contradiction
  | cons line rest ih =>
    cases rest with
    | nil => exact ⟨Nat.zero_lt_one, Nat.min_le_right _ _⟩
    | cons next more =>
      simp only [locateIn]
      split
      · rename_i short
        exact ⟨Nat.zero_lt_succ _, short⟩
      · obtain ⟨row, col⟩ := ih (by simp) (n - (line.length + 1))
        exact ⟨Nat.succ_lt_succ row, col⟩

theorem locateHolds {d : Document} (sound : d.Sound) (n : Nat) : d.Holds (d.locate n) :=
  locateInHolds sound.nonempty d.version n

theorem clampHolds {d : Document} (sound : d.Sound) (row col : Int) : d.Holds (d.clamp row col) := by
  have count := lineCountPos sound
  refine ⟨?_, Nat.min_le_right _ _⟩
  simp only [clamp, lastRow, lineCount] at count ⊢
  omega

theorem ensureOk {d : Document} {c : Cursor} (h : d.Holds c) : d.ensure c.toPoint = .ok c := by
  obtain ⟨row, col⟩ := h
  have inside : ¬ (c.toPoint.row < 0 || d.lineCount ≤ c.toPoint.row) = true := by
    rw [Bool.or_eq_true, decide_eq_true_eq, decide_eq_true_eq, Cursor.toPointRow]
    omega
  have short : ¬ (c.toPoint.col < 0 || d.width c.toPoint.row.toNat < c.toPoint.col) = true := by
    rw [Bool.or_eq_true, decide_eq_true_eq, decide_eq_true_eq, Cursor.toPointRow, Cursor.toPointCol,
      Int.toNat_natCast]
    omega
  rw [ensure, if_neg inside, if_neg short]
  rfl

theorem startCons (line : Text) (rest : List Text) (version row : Nat) :
    start ⟨line :: rest, version⟩ (row + 1) = line.length + 1 + start ⟨rest, version⟩ row := rfl

theorem unlinesCons (line : Text) {rest : List Text} (more : rest ≠ []) :
    Text.unlines (line :: rest) = line ++ '\n' :: Text.unlines rest := by
  cases rest with
  | nil => contradiction
  | cons next rest => simp [Text.unlines, Text.joinWith]

theorem takeInUnlines {ls : List Text} {version row col : Nat} (inside : row < ls.length)
    (short : col ≤ (ls.getD row []).length) :
    (Text.unlines ls).take (start ⟨ls, version⟩ row + col) =
      Text.unlines (ls.take row ++ [(ls.getD row []).take col]) := by
  induction ls generalizing row with
  | nil => simp at inside
  | cons line rest ih =>
    cases row with
    | zero =>
      simp only [List.getD_cons_zero] at short
      cases rest with
      | nil => simp [start, Text.unlines, Text.joinWith]
      | cons next more =>
        rw [unlinesCons line (by simp)]
        simp [start, List.take_append_of_le_length short, Text.unlines, Text.joinWith]
    | succ row =>
      simp only [List.length_cons, Nat.add_lt_add_iff_right] at inside
      simp only [List.getD_cons_succ] at short
      have nonempty : rest ≠ [] := List.ne_nil_of_length_pos (by omega)
      have size : line.length + 1 + start ⟨rest, version⟩ row + col =
          line.length + (start ⟨rest, version⟩ row + col + 1) := by omega
      rw [startCons, unlinesCons line nonempty, size, List.take_length_add_append,
        List.take_succ_cons, ih inside short, List.take_succ_cons, List.getD_cons_succ,
        List.cons_append, unlinesCons line (by simp)]

theorem offsetInUnlines {ls : List Text} {version row col : Nat} (inside : row < ls.length)
    (short : col ≤ (ls.getD row []).length) :
    start ⟨ls, version⟩ row + col ≤ (Text.unlines ls).length := by
  induction ls generalizing row with
  | nil => simp at inside
  | cons line rest ih =>
    cases row with
    | zero =>
      simp only [List.getD_cons_zero] at short
      cases rest with
      | nil => simpa [start, Text.unlines, Text.joinWith] using short
      | cons next more =>
        rw [unlinesCons line (by simp)]
        simp [start]
        omega
    | succ row =>
      simp only [List.length_cons, Nat.add_lt_add_iff_right] at inside
      simp only [List.getD_cons_succ] at short
      have behind := ih inside short
      rw [startCons, unlinesCons line (List.ne_nil_of_length_pos (by omega))]
      simp
      omega

theorem offsetLe {d : Document} {c : Cursor} (h : d.Holds c) :
    d.start c.row + c.col ≤ d.text.length := offsetInUnlines h.1 h.2

theorem startMono (d : Document) {row row' : Nat} (le : row ≤ row') : d.start row ≤ d.start row' := by
  obtain ⟨ls, version⟩ := d
  induction ls generalizing row row' with
  | nil => simp [start]
  | cons line rest ih =>
    cases row with
    | zero => simp [start]
    | succ row =>
      obtain ⟨next, rfl⟩ : ∃ next, row' = next + 1 := ⟨row' - 1, by omega⟩
      have below := ih (by omega : row ≤ next)
      simp only [startCons]
      omega

theorem startSucc {d : Document} {row : Nat} (inside : row < d.lineCount) :
    d.start (row + 1) = d.start row + d.width row + 1 := by
  obtain ⟨ls, version⟩ := d
  induction ls generalizing row with
  | nil => simp [lineCount] at inside
  | cons line rest ih =>
    cases row with
    | zero => simp [start, width]
    | succ row =>
      have next := ih (by simpa [lineCount] using inside : row < lineCount ⟨rest, version⟩)
      simp only [startCons, next]
      simp [width]
      omega

theorem offsetMono {d : Document} {c c' : Cursor} (h : d.Holds c) (le : c.le c' = true) :
    d.start c.row + c.col ≤ d.start c'.row + c'.col := by
  have short := h.2
  simp [Cursor.le] at le
  rcases le with above | ⟨same, before⟩
  · have next := startSucc h.1
    have mono := d.startMono (by omega : c.row + 1 ≤ c'.row)
    omega
  · rw [same]
    omega

theorem clampHeld {d : Document} {c : Cursor} (h : d.Holds c) : d.clamp c.row c.col = c := by
  obtain ⟨row, col⟩ := c
  obtain ⟨inside, short⟩ := h
  simp only [lineCount] at inside short
  have low : min row d.lastRow = row := by simp only [lastRow]; omega
  simp [clamp, low, short]

theorem textTake {d : Document} {c : Cursor} (h : d.Holds c) :
    d.text.take (d.start c.row + c.col) =
      Text.unlines (d.lines.take c.row ++ [(d.lines.getD c.row []).take c.col]) :=
  takeInUnlines h.1 h.2

theorem replacedBehind {d : Document} {c : Cursor} (sound : d.Sound) (h : d.Holds c) (rest : Text) :
    ∃ head tail, (d.replaceText (d.text.take (d.start c.row + c.col) ++ rest)).lines =
      d.lines.take c.row ++ ((d.lines.getD c.row []).take c.col ++ head) :: tail := by
  obtain ⟨line, found, member, -⟩ := someLine h.1
  have same : d.lines.getD c.row [] = line := by simp [found]
  cases pieces : rest.lines with
  | nil => exact absurd pieces (Text.splitOn_ne_nil '\n' rest)
  | cons head tail =>
    refine ⟨head, tail, ?_⟩
    rw [textTake h, same]
    refine Text.linesAppend ?_ pieces
    intro piece inside
    rcases List.mem_append.mp inside with above | own
    · exact sound.clean piece (List.mem_of_mem_take above)
    · rw [List.mem_singleton.mp own]
      exact fun newline => sound.clean line member (List.mem_of_mem_take newline)

theorem holdsReplaced {d : Document} {c : Cursor} {k : Nat} (sound : d.Sound) (h : d.Holds c)
    (before : d.start c.row + c.col ≤ k) (rest : Text) :
    (d.replaceText (d.text.take k ++ rest)).Holds c := by
  have cut : d.text.take k = d.text.take (d.start c.row + c.col) ++
      (d.text.take k).drop (d.start c.row + c.col) := by
    have parts := List.take_append_drop (d.start c.row + c.col) (d.text.take k)
    rwa [List.take_take, Nat.min_eq_left before, eq_comm] at parts
  obtain ⟨head, tail, lines⟩ :=
    replacedBehind sound h ((d.text.take k).drop (d.start c.row + c.col) ++ rest)
  rw [cut, List.append_assoc]
  have above : (d.lines.take c.row).length = c.row := by
    rw [List.length_take]; exact Nat.min_eq_left (Nat.le_of_lt h.1)
  have short := h.2
  simp only [width] at short
  constructor
  · rw [lineCount, lines]
    simp [above]
  · rw [width, lines, List.getD_eq_getElem?_getD, List.getElem?_append_right (Nat.le_of_eq above),
      above, Nat.sub_self, List.getElem?_cons_zero, Option.getD_some, List.length_append,
      List.length_take, Nat.min_eq_left short]
    exact Nat.le_add_right _ _

end Document

end ModalNotes
