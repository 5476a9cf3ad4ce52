import Mathlib.Logic.Function.Iterate
import ModalNotes.Buffer.Basic
import ModalNotes.Proofs.Anchor
import ModalNotes.Proofs.Run

/-! What every step of a buffer keeps. A sound buffer has its cursor in its document and its live anchors
on spans of it, and no step from a sound buffer fails. A later buffer has every anchor of an earlier one,
and the earlier one's document as long as the version is the same. -/
namespace ModalNotes.Buffer

structure Sound (b : Buffer) : Prop where
  document : b.document.Sound
  cursor : b.document.Holds b.cursor
  anchors : b.anchors.Fits b.document

theorem ofTextSound (text : Text) (maxHistory : Int) : (ofText text maxHistory).Sound where
  document := Document.soundOfText text
  cursor := ⟨Document.lineCountPos (Document.soundOfText text), Nat.zero_le _⟩
  anchors _ _ member := absurd member List.not_mem_nil

def Keeps (t u : AnchorTable) : Prop :=
  ∀ id a, t.get? id = some a → ∃ a', u.get? id = some a' ∧ (a.deleted = true → a'.deleted = true)

structure Follows (b later : Buffer) : Prop where
  sound : later.Sound
  version : b.version ≤ later.version
  still : later.version = b.version → later.document = b.document ∧ later.anchors = b.anchors
  kept : Keeps b.anchors later.anchors
  keys : later.anchors.keys = b.anchors.keys
  drawn : later.newAnchor = b.newAnchor

theorem keepsRefl (t : AnchorTable) : Keeps t t := fun _ a found => ⟨a, found, id⟩

theorem keepsTrans {t u v : AnchorTable} (first : Keeps t u) (second : Keeps u v) : Keeps t v := by
  intro id a found
  obtain ⟨a', found', gone⟩ := first id a found
  obtain ⟨a'', found'', gone'⟩ := second id a' found'
  exact ⟨a'', found'', fun h => gone' (gone h)⟩

theorem followsRefl {b : Buffer} (sound : b.Sound) : Follows b b :=
  ⟨sound, Nat.le_refl _, fun _ => ⟨rfl, rfl⟩, keepsRefl _, rfl, rfl⟩

theorem Follows.trans {b c d : Buffer} (first : Follows b c) (second : Follows c d) : Follows b d where
  sound := second.sound
  version := Nat.le_trans first.version second.version
  still same := by
    have low := first.version
    have high := second.version
    obtain ⟨document, anchors⟩ := second.still (by omega)
    obtain ⟨document', anchors'⟩ := first.still (by omega)
    exact ⟨document.trans document', anchors.trans anchors'⟩
  kept := keepsTrans first.kept second.kept
  keys := second.keys.trans first.keys
  drawn := second.drawn.trans first.drawn

structure Steady (b later : Buffer) : Prop where
  document : later.document = b.document
  cursor : b.document.Holds later.cursor
  anchors : later.anchors = b.anchors
  drawn : later.newAnchor = b.newAnchor

theorem steadyRefl {b : Buffer} (sound : b.Sound) : Steady b b := ⟨rfl, sound.cursor, rfl, rfl⟩

theorem Steady.trans {b c d : Buffer} (first : Steady b c) (second : Steady c d) : Steady b d where
  document := second.document.trans first.document
  cursor := first.document ▸ second.cursor
  anchors := second.anchors.trans first.anchors
  drawn := second.drawn.trans first.drawn

theorem Steady.follows {b later : Buffer} (h : Steady b later) (sound : b.Sound) : Follows b later where
  sound := ⟨h.document ▸ sound.document, h.document ▸ h.cursor,
    by rw [h.document, h.anchors]; exact sound.anchors⟩
  version := Nat.le_of_eq (by rw [version, version, h.document])
  still _ := ⟨h.document, h.anchors⟩
  kept := h.anchors ▸ keepsRefl _
  keys := by rw [h.anchors]
  drawn := h.drawn

theorem offsetCursor {b : Buffer} (sound : b.Sound) :
    b.document.offset b.cursor = .ok (b.document.start b.cursor.row + b.cursor.col) :=
  Document.offsetOk sound.cursor

def Safe {α : Type} (m : Run Buffer α) : Prop :=
  ∀ b, b.Sound → m.Ends b fun _ later => Follows b later ∧ later.selectionStart = b.selectionStart

theorem safePure {α : Type} (a : α) : Safe (pure a : Run Buffer α) :=
  fun _ sound => Run.endsPure.mpr ⟨followsRefl sound, rfl⟩

theorem safeBind {α β : Type} {m : Run Buffer α} {f : α → Run Buffer β} (first : Safe m)
    (rest : ∀ a, Safe (f a)) : Safe (m >>= f) := by
  intro b sound
  rw [Run.endsBind]
  refine Run.endsMono (first b sound) ?_
  intro a c post
  obtain ⟨follows, selection⟩ := post
  refine Run.endsMono (rest a c follows.sound) ?_
  intro a' d post
  obtain ⟨follows', selection'⟩ := post
  exact ⟨follows.trans follows', selection'.trans selection⟩

theorem steadyYank {b : Buffer} (sound : b.Sound) (value : Register) : Steady b (b.yank value) :=
  ⟨rfl, sound.cursor, rfl, rfl⟩

theorem safeYank (value : Register) : Safe (Run.modify (·.yank value)) :=
  fun _ sound => Run.endsModify.mpr ⟨(steadyYank sound value).follows sound, rfl⟩

def edited (b : Buffer) (e : Edit) : Document :=
  b.document.replaceText (b.text.take e.start ++ (e.text ++ b.text.drop e.stop))

theorem applyEditEnds {b : Buffer} (sound : b.Sound) (e : Edit) :
    (applyEdit e).Ends b fun _ later =>
      (Follows b later ∧ later.selectionStart = b.selectionStart) ∧
        later.document = b.edited e := by
  have after := Document.soundReplace b.document (b.text.take e.start ++ (e.text ++ b.text.drop e.stop))
  have fits := AnchorTable.carriedFits sound.document sound.anchors e.start e.stop e.text.length
    (e.text ++ b.text.drop e.stop)
  have shifted := AnchorTable.shiftCarried sound.anchors
    (b.document.replaceText (b.text.take e.start ++ e.text ++ b.text.drop e.stop))
    e.start e.stop e.text.length
  simp only [Run.Ends, applyEdit, shifted]
  rw [List.append_assoc]
  refine ⟨_, rfl, ⟨⟨⟨after, Document.clampHolds after _ _, fits⟩, Nat.le_succ _, ?_, ?_, ?_, rfl⟩,
    trivial⟩, rfl⟩
  · intro same
    exact absurd same (Nat.succ_ne_self _)
  · intro id a found
    refine ⟨_, by rw [Table.getMap, found]; rfl, ?_⟩
    intro gone
    rw [Anchor.carriedDeleted gone]
    exact gone
  · exact Table.keysMap _ _

theorem editEnds {b : Buffer} (sound : b.Sound) (e : Edit) :
    (edit e).Ends b fun _ later =>
      (Follows b later ∧ later.selectionStart = b.selectionStart) ∧
        later.document = b.edited e := by
  unfold edit
  simp only [Run.endsBind, Run.endsGet, Run.endsSpanned]
  refine Run.endsMono (applyEditEnds sound e) ?_
  intro removed later post
  obtain ⟨⟨follows, selection⟩, document⟩ := post
  split
  · rw [Run.endsBind, Run.endsModify, Run.endsPure]
    have yanked := (steadyYank follows.sound ⟨removed, "character".toList⟩).follows follows.sound
    exact ⟨⟨follows.trans yanked, selection⟩, document⟩
  · exact Run.endsPure.mpr ⟨⟨follows, selection⟩, document⟩

theorem safeEdit (e : Edit) : Safe (edit e) :=
  fun _ sound => Run.endsMono (editEnds sound e) fun _ _ h => h.1

theorem betweenCases (a b : Cursor) :
    Selection.between a b = ⟨a, b⟩ ∨ Selection.between a b = ⟨b, a⟩ := by
  unfold Selection.between
  split
  · exact .inl rfl
  · exact .inr rfl

theorem replaceRangeEnds {b : Buffer} (sound : b.Sound) {start stop : Cursor}
    (first : b.document.Holds start) (last : b.document.Holds stop) (text label : Text) :
    (replaceRange start.toPoint stop.toPoint text label).Ends b fun _ later =>
      (Follows b later ∧ later.selectionStart = b.selectionStart) ∧
        ∃ e : Edit, later.document = b.edited e ∧
        (start.le stop = true → e.start = b.document.start start.row + start.col) := by
  have ordered : b.document.Holds (Selection.between start stop).start ∧
      b.document.Holds (Selection.between start stop).stop := by
    rcases betweenCases start stop with same | swapped
    · rw [same]; exact ⟨first, last⟩
    · rw [swapped]; exact ⟨last, first⟩
  unfold replaceRange
  simp only [Run.endsBind, Run.endsGet, Run.endsOfExcept]
  refine ⟨_, Document.ensureOk first, _, Document.ensureOk last, _, Document.offsetOk ordered.1, _,
    Document.offsetOk ordered.2, ?_⟩
  refine Run.endsMono (editEnds sound _) ?_
  intro removed later post
  obtain ⟨kept, document⟩ := post
  refine ⟨kept, _, document, ?_⟩
  intro inOrder
  simp only [Selection.between, if_pos inOrder]

def again (m : Run Buffer Bool) (n : Nat) : Buffer → Buffer := (fun b => (m b).state)^[n]

theorem againSucc (m : Run Buffer Bool) (n : Nat) (b : Buffer) :
    again m (n + 1) b = (m (again m n b)).state := Function.iterate_succ_apply' _ n b

theorem againPred (m : Run Buffer Bool) (n : Nat) (b : Buffer) :
    again m (n + 1) b = again m n (m b).state := Function.iterate_succ_apply _ n b

theorem againFollows {m : Run Buffer Bool} (safe : Safe m) {b : Buffer} (sound : b.Sound) (n : Nat) :
    b.Follows (again m n b) := by
  induction n with
  | zero => exact followsRefl sound
  | succ n ih =>
    obtain ⟨_, -, follows, -⟩ := safe _ ih.sound
    rw [againSucc]
    exact ih.trans follows

end ModalNotes.Buffer
