import ModalNotes.Proofs.Anchor.Carry
import ModalNotes.Proofs.Buffer.Change

/-! What a change notes in the history. Every operation that changes the text notes one replacement, which
turns the text before into the text behind, and an operation that finds nothing to do notes none. -/
namespace ModalNotes

theorem Timeline.pushNoted {α : Type} {t : Timeline α} {past : List α} (noted : past.take t.limit <+: t.done)
    (a : α) : (a :: past).take t.limit <+: (t.push a).done := by
  rw [push]
  refine List.prefix_take_iff.mpr ⟨?_, List.length_take_le _ _⟩
  cases limit : t.limit with
  | zero => exact List.nil_prefix
  | succ n =>
    rw [limit] at noted
    exact (List.prefix_cons_inj a).mpr ((List.take_prefix_take_left (Nat.le_succ n)).trans noted)

def Replacement.Turns (r : Replacement) (before after : Text) : Prop :=
  ∃ front back, front.length = r.offset ∧ before = front ++ (r.removed ++ back) ∧
    after = front ++ (r.inserted ++ back)

def Replacement.reversed (r : Replacement) : Replacement :=
  { r with removed := r.inserted, inserted := r.removed }

theorem Replacement.Turns.reversed {r : Replacement} {before after : Text} (h : r.Turns before after) :
    r.reversed.Turns after before := by
  obtain ⟨front, back, size, old, new⟩ := h
  exact ⟨front, back, size, new, old⟩

theorem Replacement.Turns.made {r : Replacement} {before after : Text} (h : r.Turns before after) :
    before.take r.offset ++ (r.inserted ++ before.drop (r.offset + r.removed.length)) = after := by
  obtain ⟨front, back, size, old, new⟩ := h
  have start : before.take r.offset = front := by rw [old, ← size, List.take_left']; rfl
  have rest : before.drop (r.offset + r.removed.length) = back := by
    rw [← size, old, ← List.append_assoc, List.drop_left']
    simp
  rw [start, rest, new]

def Replacement.moved (r : Replacement) (before after : Document) : Anchor → Anchor :=
  Anchor.carried before after r.offset (r.offset + r.removed.length : Nat) r.inserted.length

structure Replacement.Works (r : Replacement) (b later : Buffer) : Prop where
  document : later.document = b.document.spliced r.offset (r.offset + r.removed.length) r.inserted
  anchors : later.anchors = b.anchors.mapValues (r.moved b.document later.document)

namespace Buffer

variable {b : Buffer}

def landed (b : Buffer) (e : Edit) : Cursor :=
  let landing := e.landing.getD ((b.edited e).locate (e.start + e.text.length))
  (b.edited e).clamp landing.row landing.col

def replacement (b : Buffer) (e : Edit) : Replacement where
  label := e.label
  offset := e.start
  removed := (b.text.drop e.start).take (e.stop - e.start)
  inserted := e.text
  cursorBefore := b.cursor
  cursorAfter := b.landed e

/- An edit altogether, the registers apart: each anchor is carried for itself. -/
structure Edits (b : Buffer) (e : Edit) (later : Buffer) : Prop where
  document : later.document = b.edited e
  cursor : later.cursor = b.landed e
  history : later.history = if e.recorded then b.history.push (b.replacement e) else b.history
  anchors : later.anchors =
    b.anchors.mapValues (Anchor.carried b.document (b.edited e) e.start e.stop e.text.length)
  drawn : later.newAnchor = b.newAnchor

theorem editedSpliced (b : Buffer) (e : Edit) : b.edited e = b.document.spliced e.start e.stop e.text := rfl

theorem editReaches (reach : b.anchors.Reaches b.document) (e : Edit) :
    (edit e).Ends b fun _ later => b.Edits e later := by
  have shifted := AnchorTable.shiftReaches reach
    (b.document.replaceText (b.text.take e.start ++ e.text ++ b.text.drop e.stop))
    e.start e.stop e.text.length
  have applied : (applyEdit e).Ends b fun _ later => b.Edits e later := by
    simp only [Run.Ends, applyEdit, shifted]
    rw [List.append_assoc]
    exact ⟨_, rfl, rfl, rfl, rfl, rfl, rfl⟩
  unfold edit
  simp only [Run.endsBind, Run.endsGet, Run.endsSpanned]
  refine Run.endsMono applied fun removed later edits => ?_
  split
  · rw [Run.endsBind, Run.endsModify, Run.endsPure]
    exact ⟨edits.document, edits.cursor, edits.history, edits.anchors, edits.drawn⟩
  · exact Run.endsPure.mpr edits

theorem editsExactly (sound : b.Sound) (e : Edit) : (edit e).Ends b fun _ later => b.Edits e later :=
  editReaches (AnchorTable.fitsReaches sound.anchors) e

theorem editedText (b : Buffer) (e : Edit) :
    (b.edited e).text = b.text.take e.start ++ (e.text ++ b.text.drop e.stop) :=
  Text.unlines_lines _

theorem landedOffset {e : Edit} (free : e.landing = none) (inside : e.start ≤ b.text.length) :
    (b.edited e).start (b.landed e).row + (b.landed e).col = e.start + e.text.length := by
  have sound : (b.edited e).Sound := Document.soundReplace b.document _
  have within : e.start + e.text.length ≤ (b.edited e).text.length := by
    rw [editedText, List.length_append, List.length_take, List.length_append, Nat.min_eq_left inside]
    omega
  simp only [landed, free, Option.getD_none]
  rw [Document.clampHeld (Document.locateHolds sound _), Document.offsetLocate within]

theorem replacementTurns {e : Edit} (ordered : e.start ≤ e.stop) (inside : e.start ≤ b.text.length) :
    (b.replacement e).Turns b.text (b.edited e).text := by
  refine ⟨b.text.take e.start, b.text.drop e.stop,
    by simpa [replacement] using Nat.min_eq_left inside, ?_, editedText b e⟩
  have rest : b.text.drop e.stop = (b.text.drop e.start).drop (e.stop - e.start) := by
    rw [List.drop_drop]
    congr 1
    omega
  simp only [replacement, rest, List.take_append_drop]

def Recorded (b later : Buffer) (place : Cursor) : Prop :=
  b.document.Holds place ∧ ∃ r : Replacement, r.Turns b.text later.text ∧ r.cursorBefore = place ∧
    later.history = b.history.push r ∧ r.Works b later

def Untouched (b later : Buffer) : Prop :=
  later.document = b.document ∧ later.history = b.history ∧ later.anchors = b.anchors

theorem replacementWorks {later : Buffer} {e : Edit} (ordered : e.start ≤ e.stop)
    (inside : e.stop ≤ b.text.length) (edits : b.Edits e later) : (b.replacement e).Works b later := by
  have stop : e.start + (b.replacement e).removed.length = e.stop := by
    simp only [replacement, List.length_take, List.length_drop]
    omega
  constructor
  · rw [edits.document, editedSpliced]
    simp only [replacement] at stop ⊢
    rw [stop]
  · rw [edits.anchors, edits.document]
    simp only [Replacement.moved, replacement] at stop ⊢
    rw [stop]

theorem editRecorded (sound : b.Sound) {e : Edit} (recorded : e.recorded = true)
    (ordered : e.start ≤ e.stop) (inside : e.stop ≤ b.text.length) :
    (edit e).Ends b fun _ later => Recorded b later b.cursor := by
  refine Run.endsMono (editsExactly sound e) fun _ later edits => ?_
  have history := edits.history
  rw [recorded, if_pos rfl] at history
  refine ⟨sound.cursor, b.replacement e, ?_, rfl, history, replacementWorks ordered inside edits⟩
  have same : later.text = (b.edited e).text := congrArg Document.text edits.document
  exact same ▸ replacementTurns ordered (Nat.le_trans ordered inside)

def Tells (b : Buffer) (place : Cursor) (changed : Bool) (later : Buffer) : Prop :=
  if changed then Recorded b later place else Untouched b later

theorem tellsNothing (b : Buffer) (place : Cursor) : Tells b place false b := ⟨rfl, rfl, rfl⟩

theorem tellsEdit {α : Type} {m : Run Buffer α} {place : Cursor}
    (recorded : m.Ends b fun _ later => Recorded b later place) :
    Run.Ends (do let _ ← m; pure true) b (Tells b place) := by
  rw [Run.endsBind]
  exact Run.endsMono recorded fun _ later recorded => Run.endsPure.mpr recorded

theorem tellsThen {α : Type} {m : Run Buffer α} {place : Cursor} {f : α → Buffer → Buffer}
    (recorded : m.Ends b fun _ later => Recorded b later place)
    (kept : ∀ a later, Untouched later (f a later)) :
    Run.Ends (do let a ← m; Run.modify (f a); pure true) b (Tells b place) := by
  rw [Run.endsBind]
  refine Run.endsMono recorded fun a later post => ?_
  rw [Run.endsBind, Run.endsModify, Run.endsPure]
  obtain ⟨holds, r, turns, before, history, works⟩ := post
  obtain ⟨document, same, anchors⟩ := kept a later
  have text : (f a later).text = later.text := congrArg Document.text document
  exact ⟨holds, r, text ▸ turns, before, same.trans history, document.trans works.document,
    anchors.trans (document ▸ works.anchors)⟩

theorem insertTextRecorded (sound : b.Sound) (text : Text) :
    (insertText text).Ends b fun _ later => Recorded b later b.cursor := by
  unfold insertText
  simp only [Run.endsBind, Run.endsGet, Run.endsOfExcept, Run.endsPure]
  exact ⟨_, offsetCursor sound, editRecorded sound rfl (Nat.le_refl _) (Document.offsetLe sound.cursor)⟩

theorem deleteCharTells (sound : b.Sound) : deleteChar.Ends b (Tells b b.cursor) := by
  have inside := Document.offsetLe sound.cursor
  unfold deleteChar
  simp only [Run.endsBind, Run.endsGet, Run.endsOfExcept]
  refine ⟨_, offsetCursor sound, ?_⟩
  split
  · exact Run.endsPure.mpr (tellsNothing b _)
  · refine tellsEdit (editRecorded sound rfl (Nat.sub_le _ _) ?_)
    dsimp only
    rw [text]
    omega

theorem deleteNextCharTells (sound : b.Sound) : deleteNextChar.Ends b (Tells b b.cursor) := by
  unfold deleteNextChar
  simp only [Run.endsBind, Run.endsGet, Run.endsOfExcept]
  refine ⟨_, offsetCursor sound, ?_⟩
  split
  · exact Run.endsPure.mpr (tellsNothing b _)
  · rename_i short
    exact tellsEdit (editRecorded sound rfl (Nat.le_succ _) (Nat.lt_of_not_le short))

theorem betweenOrdered {d : Document} {start stop : Cursor} (first : d.Holds start) (last : d.Holds stop) :
    d.Holds (Selection.between start stop).start ∧ d.Holds (Selection.between start stop).stop ∧
      (Selection.between start stop).start.le (Selection.between start stop).stop = true := by
  unfold Selection.between
  split
  · rename_i le
    exact ⟨first, last, le⟩
  · rename_i gt
    refine ⟨last, first, ?_⟩
    simp [Cursor.le] at gt ⊢
    omega

theorem replaceRangeRecorded (sound : b.Sound) {start stop : Cursor} (first : b.document.Holds start)
    (last : b.document.Holds stop) (text label : Text) :
    (replaceRange start.toPoint stop.toPoint text label).Ends b fun _ later =>
      Recorded b later b.cursor := by
  have ordered := betweenOrdered first last
  unfold replaceRange
  simp only [Run.endsBind, Run.endsGet, Run.endsOfExcept]
  refine ⟨_, Document.ensureOk first, _, Document.ensureOk last, _, Document.offsetOk ordered.1, _,
    Document.offsetOk ordered.2.1, ?_⟩
  exact editRecorded sound rfl (Document.offsetMono ordered.1 ordered.2.2) (Document.offsetLe ordered.2.1)

theorem deleteToLineEndTells (sound : b.Sound) : deleteToLineEnd.Ends b (Tells b b.cursor) := by
  unfold deleteToLineEnd
  rw [Run.endsBind, Run.endsGet, Run.endsBind, Run.endsOfExcept]
  refine ⟨_, Document.lineLengthOk sound.cursor.1, ?_⟩
  split
  · exact Run.endsPure.mpr (tellsNothing b _)
  · exact tellsThen (replaceRangeRecorded sound sound.cursor (holdsWidth sound) _ _)
      fun _ _ => ⟨rfl, rfl, rfl⟩

theorem lineDeletionCuts {d : Document} {row : Nat} {line : Text} {e : Edit} (inside : row < d.lineCount)
    (size : line.length = d.width row) (ok : lineDeletion d row line = .ok e) :
    e.recorded = true ∧ e.start ≤ e.stop ∧ e.stop ≤ d.text.length ∧ e.text = [] := by
  have offset : ∀ row col, row ≤ d.lineCount → d.offset ⟨row, col⟩ = .ok (d.start row + col) :=
    fun row col le => if_pos le
  have tail : d.start row + line.length ≤ d.text.length :=
    Document.offsetLe (c := ⟨row, line.length⟩) ⟨inside, Nat.le_of_eq size⟩
  unfold lineDeletion at ok
  split at ok
  · cases ok
    exact ⟨rfl, Nat.zero_le _, Nat.le_trans (Nat.le_add_left _ _) tail, rfl⟩
  split at ok
  · rename_i above
    have next : row + 1 < d.lineCount := Nat.add_lt_of_lt_sub above
    have head : d.start (row + 1) ≤ d.text.length :=
      Document.offsetLe (c := ⟨row + 1, 0⟩) ⟨next, Nat.zero_le _⟩
    simp only [offset row 0 (Nat.le_of_lt inside), offset (row + 1) 0 inside, bind, Except.bind] at ok
    cases ok
    exact ⟨rfl, d.startMono (Nat.le_succ row), head, rfl⟩
  · rename_i single last
    have before : row - 1 < d.lineCount := Nat.lt_of_le_of_lt (Nat.sub_le _ _) inside
    have climb : d.start (row - 1) + d.width (row - 1) + 1 = d.start row := by
      have pos : row - 1 + 1 = row := by
        simp only [Document.lastRow] at last
        simp only [Document.lineCount] at single inside
        omega
      rw [← Document.startSucc before, pos]
    simp only [Document.lineLengthOk before, offset _ _ (Nat.le_of_lt before),
      offset _ _ (Nat.le_of_lt inside), bind, Except.bind] at ok
    cases ok
    dsimp only
    refine ⟨rfl, ?_, tail, rfl⟩
    omega

theorem deleteLineTells (sound : b.Sound) (moveUp : Bool) :
    (deleteLine moveUp).Ends b (Tells b b.cursor) := by
  obtain ⟨line, ok, -, size⟩ := Document.lineOk sound.cursor.1
  obtain ⟨e, deletion⟩ : ∃ e, lineDeletion b.document b.cursor.row line = .ok e :=
    lineDeletionOk sound.cursor.1
  obtain ⟨recorded, ordered, inside, -⟩ := lineDeletionCuts sound.cursor.1 size deletion
  unfold deleteLine
  rw [Run.endsBind, Run.endsGet, Run.endsBind, Run.endsOfExcept]
  refine ⟨line, ok, ?_⟩
  split
  · exact Run.endsPure.mpr (tellsNothing b _)
  · rw [Run.endsBind, Run.endsOfExcept]
    refine ⟨e, deletion, ?_⟩
    refine tellsThen (editRecorded sound recorded ordered inside) fun _ later => ?_
    dsimp only
    split <;> exact ⟨rfl, rfl, rfl⟩

theorem deleteNextWordTells (sound : b.Sound) : deleteNextWord.Ends b (Tells b b.cursor) := by
  obtain ⟨line, ok, -, size⟩ := Document.lineOk sound.cursor.1
  unfold deleteNextWord
  rw [Run.endsBind, Run.endsGet, Run.endsBind, Run.endsOfExcept]
  refine ⟨line, ok, ?_⟩
  split
  · exact deleteNextCharTells sound
  · rename_i short
    have last : b.document.Holds ⟨b.cursor.row, line.wordEnd b.cursor.col⟩ :=
      Document.holdsIn sound.cursor (size ▸ Text.wordEndLe (by omega))
    exact tellsThen (replaceRangeRecorded sound sound.cursor last [] _) fun _ _ => ⟨rfl, rfl, rfl⟩

theorem deleteWordTells (sound : b.Sound) : deleteWord.Ends b (Tells b b.cursor) := by
  obtain ⟨line, ok, -, size⟩ := Document.lineOk sound.cursor.1
  unfold deleteWord
  rw [Run.endsBind, Run.endsGet]
  dsimp only
  split
  · exact deleteCharTells sound
  · rw [Run.endsBind, Run.endsOfExcept]
    have first : b.document.Holds ⟨b.cursor.row, line.wordBegin b.cursor.col⟩ :=
      Document.holdsIn sound.cursor (size ▸ Text.wordBeginLe line _)
    exact ⟨line, ok, tellsThen (replaceRangeRecorded sound first sound.cursor [] _)
      fun _ _ => ⟨rfl, rfl, rfl⟩⟩

theorem openLineBelowRecorded (sound : b.Sound) :
    openLineBelow.Ends b fun _ later =>
      Recorded b later ⟨b.cursor.row, b.document.width b.cursor.row⟩ := by
  unfold openLineBelow
  rw [Run.endsBind, Run.endsGet, Run.endsBind, Run.endsOfExcept]
  refine ⟨_, Document.lineLengthOk sound.cursor.1, ?_⟩
  rw [Run.endsBind, Run.endsPut]
  have moved : Sound { b with cursor := ⟨b.cursor.row, b.document.width b.cursor.row⟩ } :=
    ⟨sound.document, (holdsWidth sound :), sound.anchors⟩
  refine Run.endsMono (insertTextRecorded moved ['\n']) fun _ later recorded => ?_
  obtain ⟨holds, r, turns, before, history, works⟩ := recorded
  exact ⟨holds, r, turns, before, history, works.document, works.anchors⟩

theorem openLineAboveRecorded (sound : b.Sound) :
    openLineAbove.Ends b fun _ later => Recorded b later b.cursor := by
  have head : b.document.Holds ⟨b.cursor.row, 0⟩ := Document.holdsIn sound.cursor (Nat.zero_le _)
  unfold openLineAbove
  rw [Run.endsBind, Run.endsGet, Run.endsBind, Run.endsOfExcept]
  refine ⟨_, Document.offsetOk head, ?_⟩
  have inside : b.document.start b.cursor.row ≤ b.text.length := Document.offsetLe head
  rw [Run.endsBind]
  exact Run.endsMono (editRecorded sound rfl (Nat.le_refl _) inside) fun _ later recorded =>
    Run.endsPure.mpr recorded

theorem pasteTells (sound : b.Sound) : paste.Ends b (Tells b b.cursor) := by
  unfold paste
  rw [Run.endsBind, Run.endsGet]
  dsimp only
  split
  · exact Run.endsPure.mpr (tellsNothing b _)
  split
  · rw [Run.endsBind, Run.endsOfExcept]
    refine ⟨_, Document.lineLengthOk sound.cursor.1, ?_⟩
    rw [Run.endsBind, Run.endsOfExcept]
    refine ⟨_, Document.offsetOk (holdsWidth sound), ?_⟩
    have inside : b.document.start b.cursor.row + b.document.width b.cursor.row ≤ b.text.length :=
      Document.offsetLe (holdsWidth sound)
    exact tellsEdit (editRecorded sound rfl (Nat.le_refl _) inside)
  · exact tellsEdit (insertTextRecorded sound _)

end Buffer

end ModalNotes
