import Mathlib.Data.List.TakeWhile
import ModalNotes.Proofs.Anchor
import ModalNotes.Proofs.Offset

/-! The text of an anchor. An anchor that spans a part of the document begins and ends at an offset, and
the two offsets determine its row and columns. Placed on a piece of text, an anchor takes the piece up to
its first line end. -/
namespace ModalNotes

namespace Text

def firstLine (s : Text) : Text := s.takeWhile (· != '\n')

theorem firstLineClean (s : Text) : '\n' ∉ s.firstLine :=
  fun inside => absurd (List.mem_takeWhile_imp inside) (by simp)

theorem firstLineSelf {s : Text} (clean : '\n' ∉ s) : s.firstLine = s :=
  List.takeWhile_eq_self_iff.mpr fun c inside => by
    simp only [bne_iff_ne, ne_eq]
    rintro rfl
    exact clean inside

theorem firstLinePrefix (s : Text) : s.firstLine <+: s := List.takeWhile_prefix _

theorem newlineIff (s : Text) : '\n' ∈ s ↔ s.firstLine.length < s.length := by
  constructor
  · intro newline
    refine Nat.lt_of_le_of_ne s.firstLinePrefix.length_le fun whole => ?_
    rw [← s.firstLinePrefix.eq_of_length whole] at newline
    exact s.firstLineClean newline
  · intro shorter
    apply Classical.byContradiction
    intro clean
    rw [firstLineSelf clean] at shorter
    exact Nat.lt_irrefl _ shorter

theorem firstLineTake (s : Text) (n : Nat) : firstLine (s.take n) = s.firstLine.take n :=
  List.take_takeWhile.symm

def between (s : Text) (start stop : Nat) : Text := (s.drop start).take (stop - start)

theorem betweenLength {s : Text} {start stop : Nat} (inside : stop ≤ s.length) :
    (s.between start stop).length = stop - start := by
  rw [between, List.length_take, List.length_drop]
  omega

theorem betweenAppend (s : Text) {start middle stop : Nat} (first : start ≤ middle) (second : middle ≤ stop) :
    s.between start middle ++ s.between middle stop = s.between start stop := by
  obtain ⟨k, rfl⟩ := Nat.exists_eq_add_of_le first
  obtain ⟨l, rfl⟩ := Nat.exists_eq_add_of_le second
  have whole : start + k + l - start = k + l := by omega
  simp only [between, Nat.add_sub_cancel_left, whole, List.take_add, List.drop_drop]

theorem betweenLeft {s : Text} (rest : Text) {start stop : Nat} (le : start ≤ stop)
    (inside : stop ≤ s.length) : between (s ++ rest) start stop = s.between start stop := by
  rw [between, List.drop_append_of_le_length (Nat.le_trans le inside),
    List.take_append_of_le_length (by rw [List.length_drop]; omega), between]

theorem sliceBetween {s : Text} {start stop : Nat} (le : start ≤ stop) (inside : stop ≤ s.length) :
    s.slice start stop = s.between start stop := by
  have head : clampBound s.length start = start := by
    rw [clampBound, if_neg (by omega)]
    omega
  have tail : clampBound s.length stop = stop := by
    rw [clampBound, if_neg (by omega)]
    omega
  rw [slice, head, tail, between]

theorem betweenDrop (s : Text) {start stop : Nat} (le : start ≤ stop) :
    s.between start stop ++ s.drop stop = s.drop start := by
  obtain ⟨k, rfl⟩ := Nat.exists_eq_add_of_le le
  simp only [between, Nat.add_sub_cancel_left]
  rw [← List.drop_drop, List.take_append_drop]

theorem firstLineAppend {s : Text} (clean : '\n' ∉ s) (rest : Text) :
    (s ++ rest).firstLine = s ++ rest.firstLine := by
  refine List.takeWhile_append_of_pos fun c inside => ?_
  simp only [bne_iff_ne, ne_eq]
  rintro rfl
  exact clean inside

theorem firstLineSome {s : Text} (clean : '\n' ∉ s) (some : s ≠ []) (rest : Text) :
    firstLine (s ++ rest) ≠ [] := by
  rw [firstLineAppend clean]
  exact fun none => some (List.append_eq_nil_iff.mp none).1

end Text

namespace Document

theorem firstLineBehind (below : List Text) : (behind below).firstLine = [] := by
  cases below <;> simp [behind, Text.firstLine]

theorem lineClean {d : Document} (sound : d.Sound) (row : Nat) : '\n' ∉ d.lines.getD row [] := by
  by_cases inside : row < d.lineCount
  · obtain ⟨line, found, member, -⟩ := someLine inside
    simpa [found] using sound.clean line member
  · rw [List.getD_eq_getElem?_getD, List.getElem?_eq_none (Nat.le_of_not_lt inside)]
    exact List.not_mem_nil

theorem firstLineDrop {d : Document} (sound : d.Sound) {c : Cursor} (h : d.Holds c) :
    Text.firstLine (d.text.drop (d.start c.row + c.col)) = (d.lines.getD c.row []).drop c.col := by
  have clean : '\n' ∉ (d.lines.getD c.row []).drop c.col :=
    fun inside => lineClean sound c.row (List.mem_of_mem_drop inside)
  rw [textDrop h, Text.firstLineAppend clean, firstLineBehind, List.append_nil]

theorem firstLineWidth {d : Document} (sound : d.Sound) {c : Cursor} (h : d.Holds c) :
    (Text.firstLine (d.text.drop (d.start c.row + c.col))).length = d.width c.row - c.col := by
  rw [firstLineDrop sound h, List.length_drop, width]

theorem firstLineBetween {d : Document} (sound : d.Sound) {c : Cursor} (h : d.Holds c) (stop : Nat) :
    (d.text.between (d.start c.row + c.col) stop).firstLine.length =
      min (stop - (d.start c.row + c.col)) (d.width c.row - c.col) := by
  rw [Text.between, Text.firstLineTake, List.length_take, firstLineWidth sound h]

theorem newlineBetween {d : Document} (sound : d.Sound) {c : Cursor} (h : d.Holds c) {stop : Nat}
    (inside : stop ≤ d.text.length) :
    '\n' ∈ d.text.between (d.start c.row + c.col) stop ↔
      d.width c.row < c.col + (stop - (d.start c.row + c.col)) := by
  have short := h.2
  rw [Text.newlineIff, firstLineBetween sound h, Text.betweenLength inside]
  omega

end Document

namespace Anchor

variable {a b : Anchor} {d : Document}

def first (a : Anchor) (d : Document) : Nat := d.start a.row.toNat + a.startCol.toNat

def last (a : Anchor) (d : Document) : Nat := d.start a.row.toNat + a.endCol.toNat

theorem firstLines {d' : Document} (a : Anchor) (same : d.lines = d'.lines) : a.first d = a.first d' := by
  simp only [first, Document.start, same]

theorem lastLines {d' : Document} (a : Anchor) (same : d.lines = d'.lines) : a.last d = a.last d' := by
  simp only [last, Document.start, same]

def text (a : Anchor) (d : Document) : Text := d.text.between (a.first d) (a.last d)

theorem headHolds (h : a.Spans d) : d.Holds ⟨a.row.toNat, a.startCol.toNat⟩ := by
  obtain ⟨above, below, start, nonempty, inside⟩ := h
  exact ⟨by simp only; omega, by simp only; omega⟩

theorem firstLtLast (h : a.Spans d) : a.first d < a.last d := by
  have start := h.start
  have nonempty := h.nonempty
  simp only [first, last]
  omega

theorem lastLe (h : a.Spans d) : a.last d ≤ d.text.length := Document.offsetLe (spansHolds h)

theorem textLength (h : a.Spans d) : (a.text d).length = a.last d - a.first d :=
  Text.betweenLength (lastLe h)

theorem offsetFirst (h : a.Spans d) : d.offsetOf ⟨a.row, a.startCol⟩ = .ok (a.first d : Int) := by
  have start := h.start
  rw [offsetOfOk h, first]
  simp only [Except.ok.injEq]
  omega

theorem offsetLast (h : a.Spans d) : d.offsetOf ⟨a.row, a.endCol⟩ = .ok (a.last d : Int) := by
  have start := h.start
  have nonempty := h.nonempty
  rw [offsetOfOk h, last]
  simp only [Except.ok.injEq]
  omega

theorem textClean (sound : d.Sound) (h : a.Spans d) : '\n' ∉ a.text d := by
  have inside := lastLe h
  have start := h.start
  have nonempty := h.nonempty
  have short := h.inside
  have newline := Document.newlineBetween sound (headHolds h) inside
  simp only [last] at newline
  rw [text, first, last, newline]
  omega

theorem partClean (sound : d.Sound) (h : a.Spans d) {m n : Nat} (begins : a.first d ≤ m) (le : m ≤ n)
    (ends : n ≤ a.last d) : '\n' ∉ d.text.between m n := by
  intro newline
  refine textClean sound h ?_
  rw [text, ← Text.betweenAppend _ begins (Nat.le_trans le ends), ← Text.betweenAppend _ le ends]
  exact List.mem_append_right _ (List.mem_append_left _ newline)

theorem lineSlice (h : a.Spans d) :
    ∃ line, d.lineAt a.row = .ok line ∧ line.slice a.startCol a.endCol = a.text d := by
  obtain ⟨line, found, -, width⟩ := Document.someLine (headHolds h).1
  have own : d.lines.getD a.row.toNat [] = line := by
    rw [List.getD_eq_getElem?_getD, found, Option.getD_some]
  have start := h.start
  have nonempty := h.nonempty
  have short := h.inside
  rw [width] at short
  have cut : line.slice a.startCol.toNat a.endCol.toNat = line.between a.startCol.toNat a.endCol.toNat :=
    Text.sliceBetween (by omega) (by omega)
  rw [Int.toNat_of_nonneg start, Int.toNat_of_nonneg (by omega)] at cut
  refine ⟨line, ?_, cut.trans ?_⟩
  · rw [Document.lineAt, Text.nth?, if_pos h.above, found]
  · have rest := Document.textDrop (headHolds h)
    simp only [own] at rest
    have size : a.last d - a.first d = a.endCol.toNat - a.startCol.toNat := by
      simp only [last, first]
      omega
    rw [text, Text.between, Text.between, size, first, rest,
      List.take_append_of_le_length (by rw [List.length_drop]; omega)]

theorem geometryOfEnds (spans : a.Spans d) (spans' : b.Spans d) (begins : a.first d = b.first d)
    (ends : a.last d = b.last d) : a.geometry = b.geometry := by
  have head : (⟨a.row.toNat, a.startCol.toNat⟩ : Cursor) = ⟨b.row.toNat, b.startCol.toNat⟩ := by
    rw [← Document.locateOffset (headHolds spans), ← Document.locateOffset (headHolds spans')]
    exact congrArg d.locate begins
  have tail : (⟨a.row.toNat, a.endCol.toNat⟩ : Cursor) = ⟨b.row.toNat, b.endCol.toNat⟩ := by
    rw [← Document.locateOffset (spansHolds spans), ← Document.locateOffset (spansHolds spans')]
    exact congrArg d.locate ends
  simp only [Cursor.mk.injEq] at head tail
  have above := spans.above
  have above' := spans'.above
  have start := spans.start
  have start' := spans'.start
  have nonempty := spans.nonempty
  have nonempty' := spans'.nonempty
  simp only [geometry, Prod.mk.injEq]
  refine ⟨?_, ?_, ?_⟩ <;> omega

/- An anchor that was put on a piece of text which starts at `begin` and not with a line end. -/
structure Takes (a placed : Anchor) (d : Document) (begin : Nat) (piece : Text) : Prop where
  spans : placed.Spans d
  deleted : placed.deleted = a.deleted
  first : placed.first d = begin
  text : placed.text d = piece.firstLine
  edited : placed.edited = (a.edited || decide ('\n' ∈ piece))

theorem Takes.last {placed : Anchor} {begin : Nat} {piece : Text} (h : Takes a placed d begin piece) :
    placed.last d = begin + piece.firstLine.length := by
  have size := textLength h.spans
  have nonempty := firstLtLast h.spans
  have begins := h.first
  rw [h.text] at size
  omega

theorem onLine {c : Cursor} (holds : d.Holds c) {stop : Nat} (wide : c.col < stop)
    (short : stop ≤ d.width c.row) (edited deleted : Bool) :
    Spans ⟨c.row, c.col, stop, edited, deleted⟩ d :=
  ⟨Int.natCast_nonneg _, Int.ofNat_lt.mpr holds.1, Int.natCast_nonneg _, Int.ofNat_lt.mpr wide,
    Int.ofNat_le.mpr short⟩

theorem placeTakes (sound : d.Sound) (a : Anchor) {m n : Nat} (lt : m < n) (inside : n ≤ d.text.length)
    (solid : Text.firstLine (d.text.drop m) ≠ []) :
    Takes a (a.place d m n) d m (d.text.between m n) := by
  have head := Document.locateHolds sound m
  have tail := Document.locateHolds sound n
  have begins := Document.offsetLocate (Nat.le_trans (Nat.le_of_lt lt) inside)
  have ends := Document.offsetLocate inside
  have lower := Document.locateRowMono sound (Nat.le_of_lt lt) inside
  have width := Document.firstLineWidth sound head
  have size := Document.firstLineBetween sound head n
  have newline := Document.newlineBetween sound head inside
  have some := List.length_pos_iff.mpr solid
  rw [begins] at width size newline
  have front := Text.firstLinePrefix (d.text.between m n)
  unfold place
  simp only [Int.toNat_natCast]
  generalize d.locate m = c at *
  generalize d.locate n = c' at *
  obtain ⟨stop, isStop⟩ : ∃ stop, stop = if c'.row = c.row then c'.col else d.width c.row := ⟨_, rfl⟩
  -- The anchor ends at the piece's end if that is on the same line, and at the line's end otherwise.
  have parts : c.col < stop ∧ stop ≤ d.width c.row ∧ stop - c.col = min (n - m) (d.width c.row - c.col) ∧
      (c'.row ≠ c.row ↔ d.width c.row < c.col + (n - m)) := by
    by_cases same : c'.row = c.row
    · rw [if_pos same] at isStop
      have short := tail.2
      rw [same] at short ends
      omega
    · rw [if_neg same] at isStop
      have order := Document.offsetBelow head (Nat.lt_of_le_of_ne lower (Ne.symm same))
      omega
  obtain ⟨wide, short, taken, further⟩ := parts
  rw [← isStop, if_neg (Nat.not_le.mpr wide)]
  have lineEnd : (c'.row != c.row) = decide ('\n' ∈ d.text.between m n) := by
    rw [Bool.eq_iff_iff, bne_iff_ne, decide_eq_true_eq, newline]
    exact further
  refine ⟨onLine head wide short _ _, rfl, begins, ?_, by rw [lineEnd]⟩
  have own := List.prefix_iff_eq_take.mp (front.trans (List.take_prefix _ _))
  rw [own, size, ← taken]
  simp only [text, Text.between, first, last, Int.toNat_natCast, begins]
  congr 1
  omega

end Anchor

end ModalNotes
