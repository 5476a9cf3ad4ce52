import ModalNotes.Anchor
import ModalNotes.Proofs.Position
import ModalNotes.Proofs.Table

/-! What a replacement of text does to anchors. Every live anchor is a non-empty span of one line, before
and after; an anchor that is marked deleted stays as it is, and no anchor leaves the table. -/
namespace ModalNotes

namespace Anchor

structure Spans (a : Anchor) (d : Document) : Prop where
  above : 0 ≤ a.row
  below : a.row < d.lineCount
  start : 0 ≤ a.startCol
  nonempty : a.startCol < a.endCol
  inside : a.endCol ≤ d.width a.row.toNat

instance (a : Anchor) (d : Document) : Decidable (a.Spans d) :=
  decidable_of_iff (0 ≤ a.row ∧ a.row < d.lineCount ∧ 0 ≤ a.startCol ∧ a.startCol < a.endCol ∧
      a.endCol ≤ d.width a.row.toNat)
    ⟨fun ⟨above, below, start, nonempty, inside⟩ => ⟨above, below, start, nonempty, inside⟩,
      fun spans => ⟨spans.above, spans.below, spans.start, spans.nonempty, spans.inside⟩⟩

def Fits (a : Anchor) (d : Document) : Prop := a.deleted = false → a.Spans d

instance (a : Anchor) (d : Document) : Decidable (a.Fits d) :=
  inferInstanceAs (Decidable (a.deleted = false → a.Spans d))

def carried (before after : Document) (start stop inserted : Int) (a : Anchor) : Anchor :=
  match carry before after start stop inserted a with
  | .ok moved => moved
  | .error _ => a

theorem spansHolds {a : Anchor} {d : Document} (h : a.Spans d) :
    d.Holds ⟨a.row.toNat, a.endCol.toNat⟩ := by
  obtain ⟨above, below, start, nonempty, inside⟩ := h
  exact ⟨by simp only; omega, by simp only; omega⟩

theorem spansOfHolds {a : Anchor} {d : Document} (above : 0 ≤ a.row) (start : 0 ≤ a.startCol)
    (nonempty : a.startCol < a.endCol) (h : d.Holds ⟨a.row.toNat, a.endCol.toNat⟩) : a.Spans d := by
  obtain ⟨row, col⟩ := h
  simp only at row col
  exact ⟨above, by omega, start, nonempty, by omega⟩

theorem spansLines {a : Anchor} {d d' : Document} (spans : a.Spans d) (lines : d'.lines = d.lines) :
    a.Spans d' := by
  obtain ⟨above, below, start, nonempty, inside⟩ := spans
  refine ⟨above, ?_, start, nonempty, ?_⟩
  · rw [Document.lineCount, lines]
    exact below
  · rw [Document.width, lines]
    exact inside

theorem placeFits {d : Document} (sound : d.Sound) (a : Anchor) (first last : Int) :
    (a.place d first last).Fits d := by
  have head := Document.locateHolds sound first.toNat
  have tail := Document.locateHolds sound last.toNat
  have inside : (if (d.locate last.toNat).row = (d.locate first.toNat).row
      then (d.locate last.toNat).col else d.width (d.locate first.toNat).row) ≤
        d.width (d.locate first.toNat).row := by
    split
    · rename_i same
      exact same ▸ tail.2
    · exact Nat.le_refl _
  intro live
  unfold place at live ⊢
  dsimp only at live ⊢
  generalize (if (d.locate last.toNat).row = (d.locate first.toNat).row
    then (d.locate last.toNat).col else d.width (d.locate first.toNat).row) = endCol at inside live ⊢
  split at live
  · simp at live
  · rename_i wide
    rw [if_neg wide]
    exact ⟨Int.natCast_nonneg _, Int.ofNat_lt.mpr head.1, Int.natCast_nonneg _,
      Int.ofNat_lt.mpr (Nat.lt_of_not_le wide), Int.ofNat_le.mpr inside⟩

theorem offsetOfOk {a : Anchor} {d : Document} (h : a.Spans d) (col : Int) :
    d.offsetOf ⟨a.row, col⟩ = .ok (d.start a.row.toNat + col) := if_pos (Int.le_of_lt h.below)

theorem carryCases {a : Anchor} {d : Document} (live : a.deleted ≠ true) (h : a.Spans d)
    (after : Document) (start stop inserted : Int) :
    ∃ moved, carry d after start stop inserted a = .ok moved ∧
      (moved = a ∧ d.start a.row.toNat + a.endCol ≤ start ∨ moved.deleted = true ∨
        ∃ b first last, moved = place b after first last) := by
  unfold carry
  rw [if_neg live]
  simp only [offsetOfOk h, bind, Except.bind]
  by_cases behind : d.start a.row.toNat + a.endCol ≤ start
  · rw [if_pos behind]
    exact ⟨a, rfl, .inl ⟨rfl, behind⟩⟩
  rw [if_neg behind]
  by_cases before : stop ≤ d.start a.row.toNat + a.startCol
  · rw [if_pos before]
    exact ⟨_, rfl, .inr (.inr ⟨_, _, _, rfl⟩)⟩
  rw [if_neg before]
  by_cases swallowed : (decide (start ≤ d.start a.row.toNat + a.startCol) &&
      decide (d.start a.row.toNat + a.endCol ≤ stop)) = true
  · rw [if_pos swallowed]
    exact ⟨_, rfl, .inr (.inl rfl)⟩
  rw [if_neg swallowed]
  generalize (if d.start a.row.toNat + a.startCol < start then d.start a.row.toNat + a.startCol
    else start + inserted) = first
  generalize (if stop < d.start a.row.toNat + a.endCol
    then d.start a.row.toNat + a.endCol + (inserted - (stop - start)) else start) = last
  by_cases empty : last ≤ first
  · rw [if_pos empty]
    exact ⟨_, rfl, .inr (.inl rfl)⟩
  · rw [if_neg empty]
    exact ⟨_, rfl, .inr (.inr ⟨_, _, _, rfl⟩)⟩

theorem carryDeleted {a : Anchor} (before after : Document) (start stop inserted : Int)
    (gone : a.deleted = true) : carry before after start stop inserted a = .ok a := if_pos gone

theorem carryCarried {a : Anchor} {d : Document} (fits : a.Fits d) (after : Document)
    (start stop inserted : Int) :
    carry d after start stop inserted a = .ok (carried d after start stop inserted a) := by
  by_cases gone : a.deleted = true
  · simp only [carried, carryDeleted d after start stop inserted gone]
  · obtain ⟨moved, ok, -⟩ := carryCases gone (fits (by simpa using gone)) after start stop inserted
    simp only [carried, ok]

theorem carriedDeleted {a : Anchor} {before after : Document} {start stop inserted : Int}
    (gone : a.deleted = true) : carried before after start stop inserted a = a := by
  simp only [carried, carryDeleted before after start stop inserted gone]

theorem carriedFits {a : Anchor} {d : Document} (sound : d.Sound) (fits : a.Fits d) (start : Nat)
    (stop inserted : Int) (rest : Text) :
    (carried d (d.replaceText (d.text.take start ++ rest)) start stop inserted a).Fits
      (d.replaceText (d.text.take start ++ rest)) := by
  have after := Document.soundReplace d (d.text.take start ++ rest)
  by_cases gone : a.deleted = true
  · rw [carriedDeleted gone]
    intro live
    simp [gone] at live
  have spans := fits (by simpa using gone)
  obtain ⟨moved, ok, cases'⟩ := carryCases gone spans
    (d.replaceText (d.text.take start ++ rest)) start stop inserted
  simp only [carried, ok]
  rcases cases' with ⟨rfl, behind⟩ | deleted | ⟨b, first, last, rfl⟩
  · intro _
    have start' := spans.start
    have nonempty := spans.nonempty
    have kept := Document.holdsReplaced sound (spansHolds spans) (k := start)
      (by simp only; omega) rest
    exact spansOfHolds spans.above start' nonempty kept
  · intro live
    simp [deleted] at live
  · exact placeFits after b first last

end Anchor

namespace AnchorTable

def Fits (t : AnchorTable) (d : Document) : Prop := ∀ id a, (id, a) ∈ t.entries → a.Fits d

instance (t : AnchorTable) (d : Document) : Decidable (t.Fits d) :=
  decidable_of_iff (∀ e ∈ t.entries, e.2.Fits d) Prod.forall

theorem carryInOk {f : Anchor → Except Fault Anchor} {g : Anchor → Anchor} (es : List (Int × Anchor))
    (ok : ∀ id a, (id, a) ∈ es → f a = .ok (g a)) :
    carryIn f es = (es.map fun e => (e.1, g e.2), .ok ()) := by
  induction es with
  | nil => rfl
  | cons e rest ih =>
    obtain ⟨id, a⟩ := e
    have first := ok id a List.mem_cons_self
    have others := ih fun id' a' member => ok id' a' (List.mem_cons_of_mem _ member)
    simp only [carryIn, first, others, List.map_cons]

theorem shiftCarried {t : AnchorTable} {d : Document} (fits : t.Fits d) (after : Document)
    (start stop inserted : Int) :
    t.shift d after start stop inserted =
      (t.mapValues (Anchor.carried d after start stop inserted), .ok ()) := by
  have carried := carryInOk t.entries fun id a member =>
    Anchor.carryCarried (fits id a member) after start stop inserted
  simp only [shift, carried, Table.mapValues]

theorem carriedFits {t : AnchorTable} {d : Document} (sound : d.Sound) (fits : t.Fits d)
    (start : Nat) (stop inserted : Int) (rest : Text) :
    Fits (t.mapValues (Anchor.carried d (d.replaceText (d.text.take start ++ rest)) start stop inserted))
      (d.replaceText (d.text.take start ++ rest)) := by
  intro id a member
  obtain ⟨⟨id', a'⟩, old, same⟩ := List.mem_map.mp member
  cases same
  exact Anchor.carriedFits sound (fits _ _ old) start stop inserted rest

theorem foldMaxLe (ids : List Int) (start : Int) :
    start ≤ ids.foldl max start ∧ ∀ id ∈ ids, id ≤ ids.foldl max start := by
  induction ids generalizing start with
  | nil => simp
  | cons id rest ih =>
    obtain ⟨first, others⟩ := ih (max start id)
    rw [List.foldl_cons]
    refine ⟨by omega, ?_⟩
    intro other member
    rcases List.mem_cons.mp member with rfl | inside
    · omega
    · exact others other inside

theorem ltNextId {t : AnchorTable} {id : Int} (h : id ∈ t.keys) : id < t.nextId := by
  unfold nextId
  split
  · rename_i none
    simp [none] at h
  · rename_i first rest keys
    rw [keys] at h
    obtain ⟨start, others⟩ := foldMaxLe rest first
    rcases List.mem_cons.mp h with rfl | inside
    · omega
    · have := others id inside
      omega

theorem nextIdFresh (t : AnchorTable) : t.nextId ∉ t.keys :=
  fun h => Int.lt_irrefl _ (ltNextId h)

end AnchorTable

end ModalNotes
