import ModalNotes.Proofs.Buffer.Record
import ModalNotes.Proofs.Buffer.Select
import ModalNotes.Proofs.Offset

/-! Deletions of characters. Whatever the cursor stands at, what goes is one run of the text, and it goes to the
unnamed register; the cursor is left where the run stood. So the paste that follows puts it back. A copy
yanks a run as well, and leaves it where it is. -/
namespace ModalNotes

theorem RegisterBank.readWritten (t : RegisterBank) (name : Text) (value : Register) :
    (t.write name value).read unnamed = value := by
  simp [read, write]

namespace Buffer

variable {b : Buffer}

/- The text has lost a run, which is in the register, and the cursor is where the run stood. -/
structure Kills (b : Buffer) (front run back : Text) (later : Buffer) : Prop where
  before : b.text = front ++ (run ++ back)
  after : later.text = front ++ back
  place : later.document.start later.cursor.row + later.cursor.col = front.length
  yanked : later.registers.read RegisterBank.unnamed = characterwise run

def Killed (b later : Buffer) : Prop := later.text = b.text ∨ ∃ front run back, Kills b front run back later

theorem Killed.same {b' later later' : Buffer} (killed : Killed b later) (text : b'.text = b.text)
    (document : later'.document = later.document) (cursor : later'.cursor = later.cursor)
    (registers : later'.registers = later.registers) : Killed b' later' := by
  have left : later'.text = later.text := congrArg Document.text document
  rcases killed with kept | ⟨front, run, back, kills⟩
  · exact .inl (by rw [left, kept, text])
  · refine .inr ⟨front, run, back, text.trans kills.before, left.trans kills.after, ?_, ?_⟩
    · rw [document, cursor, kills.place]
    · rw [registers, kills.yanked]

theorem editRemoves (sound : b.Sound) (e : Edit) :
    (edit e).Ends b fun removed later => b.Edits e later ∧ removed = (b.replacement e).removed ∧
      later.registers = if e.killed && !removed.isEmpty
        then b.registers.write RegisterBank.unnamed (characterwise removed) else b.registers := by
  have shifted := AnchorTable.shiftReaches (AnchorTable.fitsReaches sound.anchors)
    (b.document.replaceText (b.text.take e.start ++ e.text ++ b.text.drop e.stop))
    e.start e.stop e.text.length
  have applied : (applyEdit e).Ends b fun removed later =>
      removed = (b.replacement e).removed ∧ later.registers = b.registers := by
    simp only [Run.Ends, applyEdit, shifted]
    exact ⟨_, rfl, rfl, trivial⟩
  refine Run.endsBoth (editsExactly sound e) ?_
  unfold edit
  simp only [Run.endsBind, Run.endsGet, Run.endsSpanned]
  refine Run.endsMono applied fun removed later done => ?_
  obtain ⟨same, registers⟩ := done
  split
  · rename_i kills
    rw [Run.endsBind, Run.endsModify, Run.endsPure]
    refine ⟨same, ?_⟩
    rw [if_pos kills, ← registers]
    rfl
  · rename_i keeps
    rw [Run.endsPure, if_neg keeps]
    exact ⟨same, registers⟩

theorem removalParts {e : Edit} (removal : e.text = []) (ordered : e.start ≤ e.stop) :
    b.text = b.text.take e.start ++ ((b.replacement e).removed ++ b.text.drop e.stop) ∧
      (b.edited e).text = b.text.take e.start ++ b.text.drop e.stop := by
  have rest : b.text.drop e.stop = (b.text.drop e.start).drop (e.stop - e.start) := by
    rw [List.drop_drop, Nat.add_sub_cancel' ordered]
  constructor
  · simp only [replacement, rest, List.take_append_drop]
  · rw [editedText, removal, List.nil_append]

theorem editedOffset {e : Edit} {c : Cursor} (sound : b.Sound) (holds : b.document.Holds c)
    (ahead : b.document.start c.row + c.col ≤ e.start) :
    (b.edited e).start c.row + c.col = b.document.start c.row + c.col := by
  rw [editedSpliced, Document.splicedStart sound.document holds ahead]

theorem killsEdited {e : Edit} {later : Buffer} (removal : e.text = []) (ordered : e.start ≤ e.stop)
    (inside : e.start ≤ b.text.length) (document : later.document = b.edited e)
    (place : later.document.start later.cursor.row + later.cursor.col = e.start)
    (yanked : later.registers.read RegisterBank.unnamed = characterwise (b.replacement e).removed) :
    Kills b (b.text.take e.start) (b.replacement e).removed (b.text.drop e.stop) later where
  before := (removalParts removal ordered).1
  after := (congrArg Document.text document).trans (removalParts removal ordered).2
  place := by rw [place, List.length_take, Nat.min_eq_left inside]
  yanked := yanked

theorem editKills {e : Edit} (sound : b.Sound) (removal : e.text = []) (kills : e.killed = true)
    (ordered : e.start < e.stop) (inside : e.stop ≤ b.text.length)
    (place : (b.edited e).start (b.landed e).row + (b.landed e).col = e.start) :
    Run.Ends (do let _ ← edit e; pure true) b fun _ later => Killed b later := by
  rw [Run.endsBind]
  refine Run.endsMono (editRemoves sound e) fun removed later done => ?_
  obtain ⟨edits, same, registers⟩ := done
  have some : removed.isEmpty = false := by
    rw [List.isEmpty_eq_false_iff, same, ← List.length_pos_iff]
    simp only [replacement, List.length_take, List.length_drop]
    omega
  rw [kills, some, Bool.not_false, Bool.and_self, if_pos rfl] at registers
  refine Run.endsPure.mpr (.inr ⟨_, _, _, killsEdited removal (Nat.le_of_lt ordered) (by omega) edits.document ?_ ?_⟩)
  · rw [edits.document, edits.cursor, place]
  · rw [registers, RegisterBank.readWritten, same]

theorem deleteCharKills (sound : b.Sound) : deleteChar.Ends b fun _ later => Killed b later := by
  have inside := Document.offsetLe sound.cursor
  unfold deleteChar
  simp only [Run.endsBind, Run.endsGet, Run.endsOfExcept]
  refine ⟨_, offsetCursor sound, ?_⟩
  split
  · exact Run.endsPure.mpr (.inl rfl)
  · rename_i further
    refine editKills sound rfl rfl ?_ inside (landedOffset rfl ?_)
    · dsimp only
      omega
    · exact Nat.le_trans (Nat.sub_le _ 1) inside

theorem deleteNextCharKills (sound : b.Sound) : deleteNextChar.Ends b fun _ later => Killed b later := by
  unfold deleteNextChar
  simp only [Run.endsBind, Run.endsGet, Run.endsOfExcept]
  refine ⟨_, offsetCursor sound, ?_⟩
  split
  · exact Run.endsPure.mpr (.inl rfl)
  · rename_i short
    refine editKills sound rfl rfl (Nat.lt_succ_self _) (Nat.lt_of_not_le short) ?_
    -- The cursor stays, and it stands in front of what goes.
    have back : ∀ e : Edit, e.start = b.document.start b.cursor.row + b.cursor.col →
        e.landing = some b.cursor → b.landed e = b.cursor := by
      intro e start landing
      simp only [landed, landing, Option.getD_some]
      exact Document.clampHeld (Document.holdsReplaced sound.document sound.cursor (Nat.le_of_eq start.symm) _)
    rw [back _ rfl rfl]
    exact editedOffset sound sound.cursor (Nat.le_refl _)

theorem rangeRemoves {start stop : Cursor} (sound : b.Sound) (first : b.document.Holds start)
    (last : b.document.Holds stop) (label : Text) :
    (replaceRange start.toPoint stop.toPoint [] label).Ends b fun removed later =>
      ∃ e : Edit, e.text = [] ∧ e.start ≤ e.stop ∧ e.start ≤ b.text.length ∧ later.document = b.edited e ∧
        later.document.start later.cursor.row + later.cursor.col = e.start ∧
        removed = (b.replacement e).removed ∧
        (start.le stop = true → later.document.start start.row + start.col = e.start) := by
  have ordered := betweenOrdered first last
  unfold replaceRange
  simp only [Run.endsBind, Run.endsGet, Run.endsOfExcept]
  refine ⟨_, Document.ensureOk first, _, Document.ensureOk last, _, Document.offsetOk ordered.1, _,
    Document.offsetOk ordered.2.1, ?_⟩
  refine Run.endsMono (editRemoves sound _) fun removed later done => ?_
  obtain ⟨edits, same, -⟩ := done
  refine ⟨_, rfl, Document.offsetMono ordered.1 ordered.2.2, Document.offsetLe ordered.1, edits.document, ?_, same, ?_⟩
  · rw [edits.document, edits.cursor]
    exact landedOffset rfl (Document.offsetLe ordered.1)
  · intro inOrder
    have range : Selection.between start stop = ⟨start, stop⟩ := by rw [Selection.between, if_pos inOrder]
    rw [edits.document]
    simp only [range]
    exact editedOffset sound first (Nat.le_refl _)

theorem rangeKills {start stop : Cursor} {f : Text → Buffer → Buffer} (sound : b.Sound)
    (first : b.document.Holds start) (last : b.document.Holds stop) (label : Text)
    (yanks : ∀ removed t, f removed t = t.yank (characterwise removed) ∨
      start.le stop = true ∧ f removed t = { t with cursor := start }.yank (characterwise removed)) :
    Run.Ends (do
      let removed ← replaceRange start.toPoint stop.toPoint [] label
      Run.modify (f removed)
      pure true) b fun _ later => Killed b later := by
  rw [Run.endsBind]
  refine Run.endsMono (rangeRemoves sound first last label) fun removed later done => ?_
  obtain ⟨e, removal, ordered, inside, document, place, same, returned⟩ := done
  rw [Run.endsBind, Run.endsModify, Run.endsPure]
  have yanked : (later.registers.write RegisterBank.unnamed (characterwise removed)).read RegisterBank.unnamed =
      characterwise (b.replacement e).removed := by rw [RegisterBank.readWritten, same]
  rcases yanks removed later with stays | ⟨inOrder, returns⟩
  · rw [stays]
    exact .inr ⟨_, _, _, killsEdited removal ordered inside document place yanked⟩
  · rw [returns]
    exact .inr ⟨_, _, _, killsEdited removal ordered inside document (returned inOrder) yanked⟩

theorem deleteToLineEndKills (sound : b.Sound) : deleteToLineEnd.Ends b fun _ later => Killed b later := by
  unfold deleteToLineEnd
  rw [Run.endsBind, Run.endsGet, Run.endsBind, Run.endsOfExcept]
  refine ⟨_, Document.lineLengthOk sound.cursor.1, ?_⟩
  split
  · exact Run.endsPure.mpr (.inl rfl)
  · exact rangeKills sound sound.cursor (holdsWidth sound) _ fun _ _ => .inl rfl

theorem deleteNextWordKills (sound : b.Sound) : deleteNextWord.Ends b fun _ later => Killed b later := by
  obtain ⟨line, ok, -, size⟩ := Document.lineOk sound.cursor.1
  unfold deleteNextWord
  rw [Run.endsBind, Run.endsGet, Run.endsBind, Run.endsOfExcept]
  refine ⟨line, ok, ?_⟩
  split
  · exact deleteNextCharKills sound
  · have last : b.document.Holds ⟨b.cursor.row, line.wordEnd b.cursor.col⟩ :=
      Document.holdsIn sound.cursor (size ▸ Text.wordEndLe (by omega))
    exact rangeKills sound sound.cursor last _
      fun _ _ => .inr ⟨leSameRow (Text.leWordEnd line b.cursor.col), rfl⟩

theorem deleteWordKills (sound : b.Sound) : deleteWord.Ends b fun _ later => Killed b later := by
  obtain ⟨line, ok, -, size⟩ := Document.lineOk sound.cursor.1
  unfold deleteWord
  rw [Run.endsBind, Run.endsGet]
  dsimp only
  split
  · exact deleteCharKills sound
  · rw [Run.endsBind, Run.endsOfExcept]
    have first : b.document.Holds ⟨b.cursor.row, line.wordBegin b.cursor.col⟩ :=
      Document.holdsIn sound.cursor (size ▸ Text.wordBeginLe line _)
    exact ⟨line, ok, rangeKills sound first sound.cursor _ fun _ _ => .inl rfl⟩

theorem cutKills (sound : b.Sound) (selects : Selects b) : cut.Ends b fun _ later => Killed b later := by
  unfold cut
  rw [Run.endsBind]
  refine Run.endsMono (selectionRangeEnds sound selects) fun range b post => ?_
  obtain ⟨rfl, selected⟩ := post
  cases range with
  | none => exact Run.endsPure.mpr (.inl rfl)
  | some r =>
    obtain ⟨first, last⟩ := selected
    dsimp only
    rw [Run.endsBind, cancelSelection, Run.endsModify]
    split
    · exact Run.endsPure.mpr (.inl rfl)
    · have sound' : Sound { b with selectionStart := none } := ⟨sound.document, sound.cursor, sound.anchors⟩
      refine Run.endsMono (rangeKills sound' first last _ fun _ _ => .inl rfl) fun _ later killed => ?_
      exact killed.same rfl rfl rfl rfl

def place (b : Buffer) (c : Cursor) : Nat := b.document.start c.row + c.col

theorem selectionHolds (sound : b.Sound) (selects : b.Selects) {s : Selection} (selected : b.selection = some s) :
    b.document.Holds s.start ∧ b.document.Holds s.stop ∧ s.start.le s.stop = true := by
  obtain ⟨c, start, rfl⟩ := Option.map_eq_some_iff.mp selected
  exact betweenOrdered (selects c start) sound.cursor

def copyEnd (b : Buffer) (s : Selection) : Cursor :=
  ⟨s.stop.row, min (s.stop.col + 1) (b.document.width s.stop.row)⟩

theorem copyYanks (sound : b.Sound) (selects : b.Selects) {s : Selection} (selected : b.selection = some s) :
    copy.Ends b fun done later => done = true ∧ later.registers.read RegisterBank.unnamed =
      characterwise (b.text.between (b.place s.start) (b.place (b.copyEnd s))) := by
  obtain ⟨first, last, -⟩ := selectionHolds sound selects selected
  have stop : b.document.Holds (b.copyEnd s) := Document.holdsIn last (Nat.min_le_right _ _)
  have range : selectionRange.Ends b fun range later => range = some ⟨s.start, b.copyEnd s⟩ ∧ later = b := by
    unfold selectionRange
    simp only [Run.endsBind, Run.endsGet, selected, Run.endsOfExcept, Run.endsPure]
    exact ⟨_, Document.lineLengthOk last.1, rfl, trivial⟩
  unfold copy
  rw [Run.endsBind]
  refine Run.endsMono range fun r later ranged => ?_
  obtain ⟨rfl, rfl⟩ := ranged
  simp only [Run.endsBind, Run.endsGet, Run.endsOfExcept, Run.endsPut, cancelSelection, Run.endsModify,
    Run.endsPure]
  refine ⟨_, Document.offsetOk first, _, Document.offsetOk stop, trivial, ?_⟩
  exact RegisterBank.readWritten _ _ _

theorem pasteInserts {run : Text} (sound : b.Sound)
    (yanked : b.registers.read RegisterBank.unnamed = characterwise run) :
    paste.Ends b fun _ later => later.text =
      b.text.take (b.document.start b.cursor.row + b.cursor.col) ++
        (run ++ b.text.drop (b.document.start b.cursor.row + b.cursor.col)) := by
  unfold paste
  rw [Run.endsBind, Run.endsGet]
  simp only [yanked]
  split
  · rename_i empty
    have none : run = [] := List.isEmpty_iff.mp empty
    rw [Run.endsPure, none, List.nil_append, List.take_append_drop]
  · have kind : (characterwise run).isLinewise = false := rfl
    rw [kind, if_neg Bool.false_ne_true, insertText]
    simp only [Run.endsBind, Run.endsGet, Run.endsOfExcept, Run.endsPure]
    refine ⟨_, offsetCursor sound, ?_⟩
    refine Run.endsMono (editsExactly sound _) fun _ later edits => ?_
    exact (congrArg Document.text edits.document).trans (editedText b _)

theorem Kills.pasted {front run back : Text} {later : Buffer} (kills : Kills b front run back later)
    (sound : later.Sound) : paste.Ends later fun _ last => last.text = b.text := by
  refine Run.endsMono (pasteInserts sound kills.yanked) fun _ last inserted => ?_
  rw [inserted, kills.place, kills.after, List.take_left, List.drop_left, kills.before]

end Buffer

end ModalNotes
