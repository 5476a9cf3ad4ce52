import Mathlib.Data.List.Forall2
import ModalNotes.Proofs.Buffer.Carry
import ModalNotes.Proofs.Buffer.Hop
import ModalNotes.Proofs.Buffer.Kill
import ModalNotes.Proofs.Buffer.Search
import ModalNotes.View.Styled

/-! The spans of a picture. The rows that a picture counts are the rows of the buffer, so every mark of a sound
buffer lies inside the styled text, and the spans are told place by place. -/
namespace ModalNotes

theorem Text.standsInside {pattern s : Text} {i : Nat} (stands : pattern <+: s.drop i) (some : pattern ≠ []) :
    i + pattern.length ≤ s.length := by
  have size := stands.length_le
  have pos := List.length_pos_iff.mpr some
  rw [List.length_drop] at size
  omega

theorem Text.standsBetween {pattern s : Text} {i : Nat} (stands : pattern <+: s.drop i) :
    s.between i (i + pattern.length) = pattern := by
  rw [between, Nat.add_sub_cancel_left]
  exact (List.prefix_iff_eq_take.mp stands).symm

namespace Styled

def cut (t : Styled) (span : StyleSpan) : Text := t.plain.slice span.start span.stop

def spansOf (t : Styled) (style : String) : List StyleSpan := t.spans.filter (·.style == style.toList)

theorem markInside (t : Styled) (style : String) {start stop : Nat} (lt : start < stop)
    (inside : stop ≤ t.plain.length) :
    t.mark style start stop = { t with spans := t.spans ++ [⟨start, stop, style.toList⟩] } := by
  have first : ¬ ((start : Int) < 0) := by omega
  have last : ¬ ((stop : Int) < 0) := by omega
  have some : ¬ ((t.plain.length : Int) ≤ start || (stop : Int) ≤ start) = true := by
    rw [Bool.or_eq_true, decide_eq_true_eq, decide_eq_true_eq]
    omega
  have short : min (t.plain.length : Int) stop = stop := by omega
  unfold mark
  dsimp only
  rw [if_neg first, if_neg last, if_neg some, short]

theorem foldMarks {α : Type} {f : Styled → α → Except Fault Styled} {span : α → StyleSpan} {plain : Text}
    (xs : List α) (each : ∀ x ∈ xs, ∀ t : Styled, t.plain = plain →
      f t x = .ok { t with spans := t.spans ++ [span x] }) {t : Styled} (same : t.plain = plain) :
    xs.foldlM f t = .ok { t with spans := t.spans ++ xs.map span } := by
  induction xs generalizing t with
  | nil => simp [pure, Except.pure]
  | cons x rest ih =>
    have others := ih (fun y member => each y (List.mem_cons_of_mem x member))
      (t := { t with spans := t.spans ++ [span x] }) same
    rw [List.foldlM_cons, each x List.mem_cons_self t same]
    refine others.trans ?_
    simp

end Styled

namespace Picture

theorem startsFromAt {ls : List Text} {row : Nat} (inside : row < ls.length) (version k : Nat) :
    (startsFrom k ls)[row]? = some (k + Document.start ⟨ls, version⟩ row) := by
  induction ls generalizing row k with
  | nil => simp at inside
  | cons line below ih =>
    cases row with
    | zero => rfl
    | succ row =>
      simp only [List.length_cons, Nat.add_lt_add_iff_right] at inside
      rw [startsFrom, List.getElem?_cons_succ, ih inside, Document.startCons]
      congr 1
      omega

end Picture

namespace Buffer

variable {b : Buffer} {attributes : List (Text × Text)}

theorem pictureLines (sound : b.document.Sound) : (b.picture attributes).text.lines = b.document.lines :=
  Text.linesUnlines sound.nonempty sound.clean

theorem pictureRow (attributes : List (Text × Text)) (sound : b.document.Sound) {row : Nat}
    (inside : row < b.document.lineCount) :
    (b.picture attributes).rowStart row = .ok (b.document.start row : Nat) := by
  have found : (b.picture attributes).starts[row]? = some (b.document.start row) := by
    rw [Picture.starts, pictureLines sound, Picture.startsFromAt inside b.document.version 0, Nat.zero_add]
  have here : Text.nth? (b.picture attributes).starts row = some (b.document.start row) := by
    rw [Text.nth?, if_pos (Int.natCast_nonneg row), Int.toNat_natCast, found]
  simp only [Picture.rowStart, here]

theorem pictureOffset (sound : b.document.Sound) {c : Cursor} (h : b.document.Holds c) :
    (b.picture attributes).offset c.toPoint = .ok (b.place c : Nat) := by
  simp only [Picture.offset, Cursor.toPoint, pictureRow attributes sound h.1, place]
  rfl

def linkSpan (b : Buffer) (a : Anchor) : StyleSpan :=
  ⟨a.first b.document, a.last b.document, Picture.linkStyle.toList⟩

def selectionSpan (b : Buffer) (s : Selection) : StyleSpan :=
  ⟨b.place s.start, b.place s.stop + 1, Picture.selectionStyle.toList⟩

def searchSpan (pattern : Text) (i : Nat) : StyleSpan :=
  ⟨i, (i + pattern.length : Nat), Picture.searchStyle.toList⟩

def hopSpan (b : Buffer) (c : Cursor) : StyleSpan := ⟨b.place c, b.place c + 2, Picture.hopStyle.toList⟩

def cursorSpan (b : Buffer) : StyleSpan := ⟨b.place b.cursor, b.place b.cursor + 1, Picture.cursorStyle.toList⟩

def sought (b : Buffer) : List StyleSpan :=
  match b.searchPattern with
  | none | some [] => []
  | some pattern => (Text.occurrences pattern b.text).map (searchSpan pattern)

structure Drawable (b : Buffer) : Prop where
  sound : b.Sound
  selects : b.Selects
  hops : ∀ c ∈ b.hopMatches, ∃ key, b.hopKey = some key ∧ key.length = 2 ∧ b.document.Stands key c

variable {t : Styled}

theorem shownLength (same : t.plain = b.text ++ [' ']) : t.plain.length = b.text.length + 1 := by
  rw [same, List.length_append]
  rfl

theorem marksLink (sound : b.document.Sound) {a : Anchor} (spans : a.Spans b.document) (id : Int)
    (same : t.plain = b.text ++ [' ']) :
    (b.picture attributes).markAnchor t ⟨id, a.row, a.startCol, a.endCol⟩ =
      .ok { t with spans := t.spans ++ [b.linkSpan a] } := by
  have above : (a.row.toNat : Int) = a.row := Int.toNat_of_nonneg spans.above
  have inside : a.row < (b.picture attributes).text.lines.length := by
    rw [pictureLines sound]
    exact spans.below
  have row := pictureRow attributes sound (Anchor.headHolds spans).1
  rw [above] at row
  have first : (b.document.start a.row.toNat : Int) + a.startCol = (a.first b.document : Nat) := by
    have start := spans.start
    simp only [Anchor.first]
    omega
  have last : (b.document.start a.row.toNat : Int) + a.endCol = (a.last b.document : Nat) := by
    have start := spans.start
    have nonempty := spans.nonempty
    simp only [Anchor.last]
    omega
  have short : a.last b.document ≤ t.plain.length := by
    rw [shownLength same]
    exact Nat.le_succ_of_le (Anchor.lastLe spans)
  simp only [Picture.markAnchor, if_pos inside, row, bind, Except.bind, first, last]
  rw [Styled.markInside t Picture.linkStyle (Anchor.firstLtLast spans) short]
  rfl

theorem marksLinks (sound : b.Sound) (same : t.plain = b.text ++ [' ']) :
    (b.picture attributes).anchors.foldlM (b.picture attributes).markAnchor t =
      .ok { t with spans := t.spans ++ b.anchors.live.map fun e => b.linkSpan e.2 } := by
  refine (List.foldlM_map ..).trans (Styled.foldMarks b.anchors.live ?_ same)
  intro e member t same
  obtain ⟨id, a⟩ := e
  obtain ⟨inside, live⟩ := List.mem_filter.mp member
  have spans := sound.anchors id a inside (by simpa using live)
  exact marksLink sound.document spans id same

theorem marksSelection (sound : b.Sound) (selects : b.Selects) (same : t.plain = b.text ++ [' ']) :
    (b.picture attributes).markSelection t =
      .ok { t with spans := t.spans ++ b.selection.toList.map b.selectionSpan } := by
  have shown : (b.picture attributes).selection =
      b.selection.map fun s => (s.start.toPoint, s.stop.toPoint) := rfl
  cases selected : b.selection with
  | none => simp [Picture.markSelection, shown, selected]
  | some s =>
    obtain ⟨first, last, le⟩ := selectionHolds sound selects selected
    have lt : b.place s.start < b.place s.stop + 1 := Nat.lt_succ_of_le (Document.offsetMono first le)
    have inside : b.place s.stop + 1 ≤ t.plain.length := by
      rw [shownLength same]
      exact Nat.succ_le_succ (Document.offsetLe last)
    have mark := Styled.markInside t Picture.selectionStyle lt inside
    simp only [Picture.markSelection, shown, selected, Option.map_some, pictureOffset sound.document first,
      pictureOffset sound.document last, bind, Except.bind]
    exact congrArg Except.ok mark

theorem marksSearch (same : t.plain = b.text ++ [' ']) :
    (b.picture attributes).markSearch t = { t with spans := t.spans ++ b.sought } := by
  unfold Picture.markSearch sought
  have pattern : (b.picture attributes).search = b.searchPattern := rfl
  rw [pattern]
  cases b.searchPattern with
  | none => simp
  | some pattern =>
    cases pattern with
    | nil => simp
    | cons c rest =>
      refine Except.ok.inj ((List.foldlM_pure (m := Except Fault)).symm.trans ?_)
      refine Styled.foldMarks (Text.occurrences (c :: rest) b.text) (fun i member u same => ?_) same
      have stands := (Text.mem_occurrences.mp member).2
      have short : i + (c :: rest).length ≤ u.plain.length := by
        rw [shownLength same]
        exact Nat.le_succ_of_le (Text.standsInside stands (List.cons_ne_nil c rest))
      exact congrArg Except.ok (Styled.markInside u Picture.searchStyle (by simp) short)

theorem marksHop (sound : b.document.Sound) {c : Cursor} (holds : b.document.Holds c)
    (inside : b.place c + 2 ≤ b.text.length) (same : t.plain = b.text ++ [' ']) :
    (b.picture attributes).markHop t c.toPoint = .ok { t with spans := t.spans ++ [b.hopSpan c] } := by
  have short : b.place c + 2 ≤ t.plain.length := by
    rw [shownLength same]
    exact Nat.le_succ_of_le inside
  have mark := Styled.markInside t Picture.hopStyle (by omega : b.place c < b.place c + 2) short
  simp only [Picture.markHop, pictureOffset sound holds, bind, Except.bind]
  exact congrArg Except.ok mark

theorem marksHops (draws : b.Drawable) (same : t.plain = b.text ++ [' ']) :
    (b.picture attributes).hop.foldlM (b.picture attributes).markHop t =
      .ok { t with spans := t.spans ++ b.hopMatches.map b.hopSpan } := by
  refine (List.foldlM_map ..).trans (Styled.foldMarks b.hopMatches ?_ same)
  intro c member t same
  obtain ⟨key, -, two, holds, stands⟩ := draws.hops c member
  have inside := Text.standsInside stands (List.ne_nil_of_length_eq_add_one two)
  rw [two] at inside
  exact marksHop draws.sound.document holds inside same

def drawn (b : Buffer) : Styled where
  plain := b.text ++ [' ']
  justify := b.alignment
  spans := b.anchors.live.map (fun e => b.linkSpan e.2) ++ b.selection.toList.map b.selectionSpan ++
    b.sought ++ b.hopMatches.map b.hopSpan ++ [b.cursorSpan]

theorem pictureStyled (draws : b.Drawable) (clean : ∀ c ∈ b.text, Styled.isDropped c = false) :
    (b.picture attributes).styled = .ok b.drawn := by
  have sound := draws.sound
  have plain : Styled.ofText (b.text ++ [' ']) b.alignment = ⟨b.text ++ [' '], b.alignment, []⟩ := by
    have kept : (b.text ++ [' ']).filter (!Styled.isDropped ·) = b.text ++ [' '] := by
      refine List.filter_eq_self.mpr fun c member => ?_
      rcases List.mem_append.mp member with inText | cell
      · rw [clean c inText]
        rfl
      · rw [List.mem_singleton.mp cell]
        rfl
    rw [Styled.ofText, kept]
  have last : b.place b.cursor + 1 ≤ (b.text ++ [' ']).length := by
    rw [List.length_append]
    exact Nat.succ_le_succ (Document.offsetLe sound.cursor)
  have text : (b.picture attributes).text = b.text := rfl
  have alignment : (b.picture attributes).alignment = b.alignment := rfl
  have cursor : (b.picture attributes).cursor = b.cursor.toPoint := rfl
  simp only [Picture.styled, text, alignment, cursor, plain, bind, Except.bind]
  rw [marksLinks sound rfl]
  dsimp only
  rw [marksSelection sound draws.selects rfl]
  dsimp only
  rw [marksSearch rfl, marksHops draws rfl]
  dsimp only
  rw [pictureOffset sound.document sound.cursor]
  exact congrArg Except.ok (Styled.markInside _ Picture.cursorStyle (Nat.lt_succ_self _) last)

theorem styledSpans {α : Type} (style : Text) {f : α → StyleSpan} (all : ∀ x, (f x).style = style) (xs : List α)
    (other : Text) : (xs.map f).filter (·.style == other) = if style = other then xs.map f else [] := by
  split
  · rename_i same
    refine List.filter_eq_self.mpr fun s member => ?_
    obtain ⟨x, -, rfl⟩ := List.mem_map.mp member
    simp [all x, same]
  · rename_i differs
    refine List.filter_eq_nil_iff.mpr fun s member => ?_
    obtain ⟨x, -, rfl⟩ := List.mem_map.mp member
    simp [all x, differs]

theorem soughtStyled (b : Buffer) (other : Text) :
    b.sought.filter (·.style == other) = if Picture.searchStyle.toList = other then b.sought else [] := by
  unfold sought
  split
  · simp
  · simp
  · exact styledSpans Picture.searchStyle.toList (fun _ => rfl) _ other

theorem drawnStyles (b : Buffer) :
    b.drawn.spansOf Picture.linkStyle = (b.anchors.live.map fun e => b.linkSpan e.2) ∧
      b.drawn.spansOf Picture.selectionStyle = b.selection.toList.map b.selectionSpan ∧
      b.drawn.spansOf Picture.searchStyle = b.sought ∧
      b.drawn.spansOf Picture.hopStyle = b.hopMatches.map b.hopSpan ∧
      b.drawn.spansOf Picture.cursorStyle = [b.cursorSpan] := by
  have styles : [Picture.linkStyle.toList, Picture.selectionStyle.toList, Picture.searchStyle.toList,
      Picture.hopStyle.toList, Picture.cursorStyle.toList].Nodup := by decide +kernel
  have links := styledSpans Picture.linkStyle.toList (f := fun e => b.linkSpan e.2) (fun _ => rfl) b.anchors.live
  have selection := styledSpans Picture.selectionStyle.toList (f := b.selectionSpan) (fun _ => rfl)
    b.selection.toList
  have hops := styledSpans Picture.hopStyle.toList (f := b.hopSpan) (fun _ => rfl) b.hopMatches
  have cursor : ∀ other, [b.cursorSpan].filter (·.style == other) =
      if Picture.cursorStyle.toList = other then [b.cursorSpan] else [] :=
    styledSpans Picture.cursorStyle.toList (f := cursorSpan) (fun _ => rfl) [b]
  simp only [Styled.spansOf, drawn, List.filter_append, links, selection, b.soughtStyled, hops, cursor]
  simp only [List.nodup_cons, List.mem_cons, List.not_mem_nil, or_false, not_or] at styles
  simp [styles, Ne.symm]

theorem drawnCut (b : Buffer) (style : Text) {start stop : Nat} (le : start ≤ stop)
    (inside : stop ≤ b.text.length + 1) :
    b.drawn.cut ⟨start, stop, style⟩ = Text.between (b.text ++ [' ']) start stop :=
  Text.sliceBetween (s := b.text ++ [' ']) le (by rw [List.length_append]; exact inside)

theorem drawnInText (b : Buffer) (style : Text) {start stop : Nat} (le : start ≤ stop)
    (inside : stop ≤ b.text.length) :
    b.drawn.cut ⟨start, stop, style⟩ = b.text.between start stop :=
  (b.drawnCut style le (Nat.le_succ_of_le inside)).trans (Text.betweenLeft [' '] le inside)

end Buffer

def Styled.Covers (t : Styled) (span : StyleSpan) (o : Nat) (text : Text) : Prop :=
  span.start = o ∧ t.cut span = text

/- What is highlighted is what is meant: each live anchor's text, the pattern at each of its places, the key of a
hop at each of its matches, one cell at the cursor, and what a copy would yank. That has one cell more if
the selection goes up to the end of a line. -/
structure Styled.Shows (t : Styled) (b : Buffer) : Prop where
  plain : t.plain = b.text ++ [' ']
  spans : t.spans = t.spansOf Picture.linkStyle ++ t.spansOf Picture.selectionStyle ++
    t.spansOf Picture.searchStyle ++ t.spansOf Picture.hopStyle ++ t.spansOf Picture.cursorStyle
  links : List.Forall₂ (fun span e => ∃ (o : Nat) (text : Text),
      b.document.offsetOf ⟨e.2.row, e.2.startCol⟩ = .ok (o : Int) ∧
      ((Buffer.anchorText e.1).Ends b fun read _ => read = text) ∧ t.Covers span o text)
    (t.spansOf Picture.linkStyle) b.anchors.live
  unselected : b.selection = none → t.spansOf Picture.selectionStyle = []
  selected : ∀ s, b.selection = some s → ∃ (span : StyleSpan) (o : Nat) (yanked more : Text),
    t.spansOf Picture.selectionStyle = [span] ∧ b.document.offset s.start = .ok o ∧
    (Buffer.copy.Ends b fun done later => done = true ∧
      later.registers.read RegisterBank.unnamed = Buffer.characterwise yanked) ∧
    t.Covers span o (yanked ++ more) ∧
    more.length = if s.stop.col = b.document.width s.stop.row then 1 else 0
  unsought : b.searchPattern = none ∨ b.searchPattern = some [] → t.spansOf Picture.searchStyle = []
  sought : ∀ pattern, b.searchPattern = some pattern → pattern ≠ [] → ∃ places : List Nat,
    places.Pairwise (· < ·) ∧ (∀ i, i ∈ places ↔ pattern <+: b.text.drop i) ∧
    List.Forall₂ (fun span i => t.Covers span i pattern) (t.spansOf Picture.searchStyle) places
  hops : List.Forall₂ (fun span c => ∃ (o : Nat) (key : Text), b.document.offset c = .ok o ∧
      b.hopKey = some key ∧ t.Covers span o key)
    (t.spansOf Picture.hopStyle) b.hopMatches
  cursor : ∃ (span : StyleSpan) (o : Nat) (cell : Char), t.spansOf Picture.cursorStyle = [span] ∧
    b.document.offset b.cursor = .ok o ∧ t.Covers span o [cell]

namespace Buffer

variable {b : Buffer}

theorem showsLinks (sound : b.Sound) (distinct : b.anchors.keys.Nodup) :
    List.Forall₂ (fun span e => ∃ (o : Nat) (text : Text),
        b.document.offsetOf ⟨e.2.row, e.2.startCol⟩ = .ok (o : Int) ∧
        ((anchorText e.1).Ends b fun read _ => read = text) ∧ b.drawn.Covers span o text)
      (b.anchors.live.map fun e => b.linkSpan e.2) b.anchors.live := by
  refine List.forall₂_map_left_iff.mpr (List.forall₂_same.mpr fun e member => ?_)
  obtain ⟨id, a⟩ := e
  obtain ⟨inside, live⟩ := List.mem_filter.mp member
  have live' : a.deleted = false := by simpa using live
  have spans := sound.anchors id a inside live'
  have reads := readsSpan (Table.getOfMem distinct inside) live' spans
  refine ⟨a.first b.document, a.text b.document, Anchor.offsetFirst spans, ?_, rfl, ?_⟩
  · exact Run.endsMono reads.text fun _ _ read => read.1
  · exact drawnInText b _ (Nat.le_of_lt (Anchor.firstLtLast spans)) (Anchor.lastLe spans)

theorem showsSought {pattern : Text} (searched : b.searchPattern = some pattern) (some : pattern ≠ []) :
    (∀ i, i ∈ Text.occurrences pattern b.text ↔ pattern <+: b.text.drop i) ∧
      List.Forall₂ (fun span i => b.drawn.Covers span i pattern) b.sought
        (Text.occurrences pattern b.text) := by
  have inside : ∀ i, pattern <+: b.text.drop i → i + pattern.length ≤ b.text.length :=
    fun i stands => Text.standsInside stands some
  have spans : b.sought = (Text.occurrences pattern b.text).map (searchSpan pattern) := by
    rw [sought, searched]
    cases pattern with
    | nil => contradiction
    | cons c rest => rfl
  constructor
  · intro i
    rw [Text.mem_occurrences]
    exact ⟨fun stands => stands.2, fun stands => ⟨Nat.le_of_add_right_le (inside i stands), stands⟩⟩
  · rw [spans]
    refine List.forall₂_map_left_iff.mpr (List.forall₂_same.mpr fun i member => ⟨rfl, ?_⟩)
    have stands := (Text.mem_occurrences.mp member).2
    rw [searchSpan, drawnInText b _ (Nat.le_add_right _ _) (inside i stands), Text.standsBetween stands]

theorem showsHops (draws : b.Drawable) :
    List.Forall₂ (fun span c => ∃ (o : Nat) (key : Text), b.document.offset c = .ok o ∧
        b.hopKey = some key ∧ b.drawn.Covers span o key)
      (b.hopMatches.map b.hopSpan) b.hopMatches := by
  refine List.forall₂_map_left_iff.mpr (List.forall₂_same.mpr fun c member => ?_)
  obtain ⟨key, sought, two, holds, stands⟩ := draws.hops c member
  refine ⟨b.place c, key, Document.offsetOk holds, sought, rfl, ?_⟩
  have inside := Text.standsInside stands (List.ne_nil_of_length_eq_add_one two)
  have under := Text.standsBetween stands
  rw [two] at inside under
  exact (drawnInText b _ (Nat.le_add_right _ 2) inside).trans under

theorem showsCursor (sound : b.Sound) : ∃ cell, b.drawn.Covers b.cursorSpan (b.place b.cursor) [cell] := by
  have inText : b.place b.cursor ≤ b.text.length := Document.offsetLe sound.cursor
  have cut := b.drawnCut Picture.cursorStyle.toList (Nat.le_succ (b.place b.cursor)) (Nat.succ_le_succ inText)
  have one : (Text.between (b.text ++ [' ']) (b.place b.cursor) (b.place b.cursor + 1)).length = 1 := by
    rw [Text.betweenLength (by rw [List.length_append]; exact Nat.succ_le_succ inText), Nat.add_sub_cancel_left]
  obtain ⟨cell, only⟩ := List.length_eq_one_iff.mp one
  exact ⟨cell, rfl, cut.trans only⟩

theorem showsSelection (sound : b.Sound) (selects : b.Selects) {s : Selection} (selected : b.selection = some s) :
    ∃ (o : Nat) (yanked more : Text), b.document.offset s.start = .ok o ∧
      (copy.Ends b fun done later => done = true ∧
        later.registers.read RegisterBank.unnamed = characterwise yanked) ∧
      b.drawn.Covers (b.selectionSpan s) o (yanked ++ more) ∧
      more.length = if s.stop.col = b.document.width s.stop.row then 1 else 0 := by
  obtain ⟨first, last, le⟩ := selectionHolds sound selects selected
  have ordered : b.place s.start ≤ b.place s.stop := Document.offsetMono first le
  have inText : b.place s.stop ≤ b.text.length := Document.offsetLe last
  have stop : b.place (b.copyEnd s) ≤ b.text.length :=
    Document.offsetLe (Document.holdsIn last (Nat.min_le_right _ _))
  have short := last.2
  -- The span ends behind the later end, and so does the copy unless the line ends there.
  have ends : b.place s.stop ≤ b.place (b.copyEnd s) ∧ b.place (b.copyEnd s) ≤ b.place s.stop + 1 ∧
      b.place s.stop + 1 - b.place (b.copyEnd s) = if s.stop.col = b.document.width s.stop.row then 1 else 0 := by
    simp only [place, copyEnd]
    split <;> omega
  obtain ⟨above, below, further⟩ := ends
  have size : b.place s.stop + 1 ≤ (b.text ++ [' ']).length := by
    rw [List.length_append]
    exact Nat.succ_le_succ inText
  refine ⟨b.place s.start, _, Text.between (b.text ++ [' ']) (b.place (b.copyEnd s)) (b.place s.stop + 1),
    Document.offsetOk first, copyYanks sound selects selected, ⟨rfl, ?_⟩, ?_⟩
  · have cut := b.drawnCut Picture.selectionStyle.toList (Nat.le_succ_of_le ordered) (Nat.succ_le_succ inText)
    have parts := Text.betweenAppend (b.text ++ [' ']) (Nat.le_trans ordered above) below
    rw [Text.betweenLeft [' '] (Nat.le_trans ordered above) stop] at parts
    exact cut.trans parts.symm
  · rw [Text.betweenLength size]
    exact further

theorem drawnShows (draws : b.Drawable) (distinct : b.anchors.keys.Nodup) : b.drawn.Shows b := by
  have sound := draws.sound
  obtain ⟨links, selection, sought, hops, cursor⟩ := b.drawnStyles
  obtain ⟨cell, covers⟩ := showsCursor sound
  constructor
  case plain => rfl
  case spans => rw [links, selection, sought, hops, cursor, drawn]
  case links =>
    rw [links]
    exact showsLinks sound distinct
  case unselected =>
    intro none
    rw [selection, none]
    rfl
  case selected =>
    intro s selected
    obtain ⟨o, yanked, more, offset, copies, under, size⟩ := showsSelection sound draws.selects selected
    refine ⟨b.selectionSpan s, o, yanked, more, ?_, offset, copies, under, size⟩
    rw [selection, selected]
    rfl
  case unsought =>
    intro none
    rw [sought, Buffer.sought]
    rcases none with none | empty
    · rw [none]
    · rw [empty]
  case sought =>
    intro pattern searched some
    obtain ⟨places, spans⟩ := showsSought searched some
    rw [sought]
    exact ⟨_, Text.pairwise_occurrences pattern b.text, places, spans⟩
  case hops =>
    rw [hops]
    exact showsHops draws
  case cursor => exact ⟨b.cursorSpan, _, cell, cursor, Document.offsetOk sound.cursor, covers⟩

end Buffer

end ModalNotes
