import ModalNotes.Buffer.Select
import ModalNotes.Proofs.Buffer.Change
import ModalNotes.Proofs.Buffer.Motion

/-! The selection, and what is done with it. A selection that lies in the document can be copied, cut or
turned into an anchor without a failure; the new anchor comes under an id above all others. -/
namespace ModalNotes.Buffer

def Selects (b : Buffer) : Prop := ∀ c, b.selectionStart = some c → b.document.Holds c

structure Draws (b later : Buffer) : Prop where
  sound : later.Sound
  document : later.document = b.document
  drawn : later.newAnchor = some b.anchors.nextId
  anchors : ∃ a, a.deleted = false ∧ a.Spans b.document ∧
    later.anchors = b.anchors.put b.anchors.nextId a

theorem startSelectionEnds {b : Buffer} (sound : b.Sound) :
    startSelection.Ends b fun _ later => Steady b later ∧ later.selectionStart = some b.cursor :=
  Run.endsModify.mpr ⟨⟨rfl, sound.cursor, rfl, rfl⟩, rfl⟩

theorem cancelSelectionEnds {b : Buffer} (sound : b.Sound) :
    cancelSelection.Ends b fun _ later => Steady b later ∧ later.selectionStart = none :=
  Run.endsModify.mpr ⟨⟨rfl, sound.cursor, rfl, rfl⟩, rfl⟩

theorem selectionRangeEnds {b : Buffer} (sound : b.Sound) (selects : Selects b) :
    selectionRange.Ends b fun range later => later = b ∧ match range with
      | none => b.selectionStart = none
      | some r => b.document.Holds r.start ∧ b.document.Holds r.stop := by
  unfold selectionRange
  rw [Run.endsBind, Run.endsGet]
  cases start : b.selectionStart with
  | none =>
    simp only [selection, start, Option.map_none, Run.endsPure]
    exact ⟨trivial, trivial⟩
  | some c =>
    have first := selects c start
    simp only [selection, start, Option.map_some, Run.endsBind, Run.endsOfExcept, Run.endsPure]
    rcases betweenCases c b.cursor with same | swapped
    · rw [same]
      refine ⟨_, Document.lineLengthOk sound.cursor.1, trivial, first, ?_⟩
      exact Document.holdsIn sound.cursor (Nat.min_le_right _ _)
    · rw [swapped]
      refine ⟨_, Document.lineLengthOk first.1, trivial, sound.cursor, ?_⟩
      exact Document.holdsIn first (Nat.min_le_right _ _)

theorem copyEnds {b : Buffer} (sound : b.Sound) (selects : Selects b) :
    copy.Ends b fun _ later => Steady b later ∧ later.selectionStart = none := by
  unfold copy
  rw [Run.endsBind]
  refine Run.endsMono (selectionRangeEnds sound selects) ?_
  intro range b post
  obtain ⟨rfl, selected⟩ := post
  cases range with
  | none => exact Run.endsPure.mpr ⟨steadyRefl sound, selected⟩
  | some r =>
    obtain ⟨first, last⟩ := selected
    simp only [Run.endsBind, Run.endsGet, Run.endsOfExcept, Run.endsPut, Run.endsPure]
    refine ⟨_, Document.offsetOk first, _, Document.offsetOk last, ?_⟩
    have yanked := steadyYank sound
    refine Run.endsMono (cancelSelectionEnds ((yanked _).follows sound).sound) ?_
    intro _ later post
    obtain ⟨steady, selection⟩ := post
    exact ⟨(yanked _).trans steady, selection⟩

theorem cutEnds {b : Buffer} (sound : b.Sound) (selects : Selects b) :
    cut.Ends b fun _ later => Follows b later ∧ later.selectionStart = none := by
  unfold cut
  rw [Run.endsBind]
  refine Run.endsMono (selectionRangeEnds sound selects) ?_
  intro range b post
  obtain ⟨rfl, selected⟩ := post
  cases range with
  | none => exact Run.endsPure.mpr ⟨followsRefl sound, selected⟩
  | some r =>
    obtain ⟨first, last⟩ := selected
    dsimp only
    rw [Run.endsBind]
    refine Run.endsMono (cancelSelectionEnds sound) ?_
    intro _ middle post
    obtain ⟨steady, selection⟩ := post
    have follows := steady.follows sound
    split
    · exact Run.endsPure.mpr ⟨follows, selection⟩
    · rw [← steady.document] at first last
      refine Run.endsMono (removeRange follows.sound first last _) ?_
      intro _ later post
      obtain ⟨follows', selection'⟩ := post
      exact ⟨follows.trans follows', selection'.trans selection⟩

theorem addOk (t : AnchorTable) {row startCol endCol : Int} (nonempty : startCol < endCol) :
    t.add row startCol endCol none = .ok (t.put t.nextId { row, startCol, endCol }, t.nextId) := by
  have fresh : t.contains t.nextId ≠ true := fun h => t.nextIdFresh (Table.containsIff.mp h)
  simp only [AnchorTable.add, if_neg (Int.not_le.mpr nonempty), Option.getD_none, if_neg fresh]

theorem anchorsPut {b : Buffer} (sound : b.Sound) {a : Anchor} (spans : a.Spans b.document) :
    AnchorTable.Fits (b.anchors.put b.anchors.nextId a) b.document := by
  intro id a' member
  rw [Table.putNew b.anchors.nextIdFresh] at member
  rcases List.mem_append.mp member with old | new
  · exact sound.anchors id a' old
  · cases List.mem_singleton.mp new
    exact fun _ => spans

theorem drawEnds {b : Buffer} (sound : b.Sound) {start : Cursor} (first : b.document.Holds start)
    {endCol : Nat} (inside : endCol ≤ b.document.width start.row) :
    Run.Ends (do
      if endCol ≤ start.col then pure none
      else do
        let id ← addAnchor start.row start.col endCol none
        Run.modify fun b => { b with newAnchor := some id }
        Run.log (Entry.event Level.info Logger.root "buffer.anchor".toList [
          ("anchor_id".toList, .int id), ("row".toList, .nat start.row),
          ("cols".toList, .tuple [.nat start.col, .nat endCol])])
        pure (some id)) b fun _ later => (Follows b later ∨ Draws b later) ∧
          later.selectionStart = b.selectionStart := by
  split
  · exact Run.endsPure.mpr ⟨.inl (followsRefl sound), rfl⟩
  · rename_i nonempty
    have ascends : (start.col : Int) < endCol := by omega
    simp only [addAnchor, Run.endsBind, Run.endsGet, Run.endsOfExcept, Run.endsPut, Run.endsModify,
      Run.endsLog, Run.endsPure]
    refine ⟨_, addOk b.anchors ascends, .inr ?_, trivial⟩
    have spans : Anchor.Spans { row := start.row, startCol := start.col, endCol } b.document :=
      ⟨Int.natCast_nonneg _, Int.ofNat_lt.mpr first.1, Int.natCast_nonneg _, ascends,
        Int.ofNat_le.mpr inside⟩
    exact ⟨⟨sound.document, sound.cursor, anchorsPut sound spans⟩, rfl, rfl, _, rfl, spans, rfl⟩

theorem Steady.draws {b c d : Buffer} (first : Steady b c) (second : Draws c d) : Draws b d := by
  obtain ⟨a, live, spans, put⟩ := second.anchors
  rw [first.anchors] at put
  exact ⟨second.sound, second.document.trans first.document, first.anchors ▸ second.drawn,
    a, live, first.document ▸ spans, put⟩

theorem Draws.steady {b c d : Buffer} (first : Draws b c) (second : Steady c d) : Draws b d := by
  obtain ⟨a, live, spans, put⟩ := first.anchors
  exact ⟨(second.follows first.sound).sound, second.document.trans first.document,
    second.drawn.trans first.drawn, a, live, spans, second.anchors.trans put⟩

theorem anchorSelectionEnds {b : Buffer} (sound : b.Sound) (selects : Selects b) :
    anchorSelection.Ends b fun _ later =>
      (Follows b later ∨ Draws b later) ∧ later.selectionStart = none := by
  unfold anchorSelection
  rw [Run.endsBind]
  refine Run.endsMono (selectionRangeEnds sound selects) ?_
  intro range b post
  obtain ⟨rfl, selected⟩ := post
  rw [Run.endsBind]
  refine Run.endsMono (cancelSelectionEnds sound) ?_
  intro _ middle post
  obtain ⟨steady, selection⟩ := post
  have follows := steady.follows sound
  cases range with
  | none => exact Run.endsPure.mpr ⟨.inl follows, selection⟩
  | some r =>
    obtain ⟨first, last⟩ := selected
    rw [← steady.document] at first last
    have joined : ∀ later, (Follows middle later ∨ Draws middle later) ∧
        later.selectionStart = middle.selectionStart →
        (Follows b later ∨ Draws b later) ∧ later.selectionStart = none := by
      intro later post
      obtain ⟨step, kept⟩ := post
      refine ⟨?_, kept.trans selection⟩
      rcases step with follows' | draws
      · exact .inl (follows.trans follows')
      · exact .inr (steady.draws draws)
    dsimp only
    rw [Run.endsBind, Run.endsGet]
    split
    · rename_i row
      rw [Run.endsBind, Run.endsPure]
      exact Run.endsMono (drawEnds follows.sound first (row ▸ last.2)) fun _ => joined
    · rw [Run.endsBind, Run.endsOfExcept]
      refine ⟨_, Document.lineLengthOk first.1, ?_⟩
      exact Run.endsMono (drawEnds follows.sound first (Nat.le_refl _)) fun _ => joined

theorem takeNewAnchorEnds {b : Buffer} (sound : b.Sound) :
    takeNewAnchor.Ends b fun id later => id = b.newAnchor ∧ later = { b with newAnchor := none } ∧
      later.Sound :=
  ⟨b.newAnchor, rfl, rfl, rfl, sound.document, sound.cursor, sound.anchors⟩

theorem removeAnchorEnds {b : Buffer} (sound : b.Sound) (id : Int) :
    (removeAnchor id).Ends b fun _ later => later = { b with anchors := b.anchors.erase id } ∧
      later.Sound := by
  refine ⟨b.anchors.get? id, rfl, rfl, sound.document, sound.cursor, ?_⟩
  intro other a member
  exact sound.anchors other a ((List.mem_filter.mp member).1)

end ModalNotes.Buffer
