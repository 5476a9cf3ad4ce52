import Mathlib.Data.List.Pairwise
import ModalNotes.Proofs.Anchor.Carry

/-! The order of anchors. A replacement moves what stands before a place no further than what stands
behind it, so of two anchors that it leaves both the first still ends where the second begins, or before. -/
namespace ModalNotes

namespace Anchor

variable {a b : Anchor} {d : Document} {start stop : Nat} {t : Text}

def Before (a b : Anchor) : Prop := a.row < b.row ∨ a.row = b.row ∧ a.endCol ≤ b.startCol

instance (a b : Anchor) : Decidable (a.Before b) :=
  inferInstanceAs (Decidable (a.row < b.row ∨ a.row = b.row ∧ a.endCol ≤ b.startCol))

theorem beforeIff (h : a.Spans d) (h' : b.Spans d) : a.Before b ↔ a.last d ≤ b.first d := by
  have order := Document.offsetLeIff (spansHolds h) (headHolds h')
  have above := h.above
  have above' := h'.above
  have start := h'.start
  have nonempty := h.nonempty
  have start' := h.start
  rw [first, last, ← order]
  simp only [Before, Cursor.le, Bool.or_eq_true, Bool.and_eq_true, decide_eq_true_eq, beq_iff_eq]
  omega

theorem carriedEnds (sound : d.Sound) (live : a.deleted = false) (h : a.Spans d) (ordered : start ≤ stop)
    (still : (carried d (d.spliced start stop t) start stop t.length a).deleted = false) :
    let moved := carried d (d.spliced start stop t) start stop t.length a
    moved.Spans (d.spliced start stop t) ∧
      moved.first (d.spliced start stop t) = a.firstKept d start stop t ∧
      moved.last (d.spliced start stop t) ≤ a.lastKept d start stop t := by
  have ascends := firstLtLast h
  by_cases clear : a.Clear d start stop
  · have takes := carriedClear (t := t) sound live h ordered clear
    refine ⟨takes.spans, takes.first, ?_⟩
    rw [takes.last, Text.firstLineSelf (textClean sound h), textLength h, firstKeptClear h clear, lastKept]
    unfold Clear at clear
    repeat' split
    all_goals omega
  by_cases inside : start ≤ a.first d ∧ a.last d ≤ stop
  · rw [carriedSwallowed live h ordered clear inside.1 inside.2] at still
    contradiction
  · have takes := carriedCut (t := t) sound live h ordered clear inside
    refine ⟨takes.spans, takes.first, ?_⟩
    have piece := remainsPlaced (t := t) h ordered clear inside
    have short := (Text.firstLinePrefix (a.remains d start stop t)).length_le
    have size := List.length_take_le (a.lastKept d start stop t - a.firstKept d start stop t)
      ((d.spliced start stop t).text.drop (a.firstKept d start stop t))
    have climbs := keptAscends (t := t) ordered clear inside
    rw [← piece, Text.between] at short
    rw [takes.last, ← piece, Text.between]
    omega

theorem keptOrder (order : a.last d ≤ b.first d) (ordered : start ≤ stop) :
    a.lastKept d start stop t ≤ b.firstKept d start stop t := by
  rw [lastKept, firstKept]
  repeat' split
  all_goals omega

theorem liveBefore {after : Document} {inserted : Int}
    (still : (carried d after start stop inserted a).deleted = false) : a.deleted = false := by
  cases gone : a.deleted with
  | false => rfl
  | true =>
    rw [carriedDeleted gone] at still
    exact gone.symm.trans still

theorem carriedBefore (sound : d.Sound) (live : a.deleted = false) (live' : b.deleted = false)
    (h : a.Spans d) (h' : b.Spans d) (ordered : start ≤ stop) (order : a.Before b)
    (still : (carried d (d.spliced start stop t) start stop t.length a).deleted = false)
    (still' : (carried d (d.spliced start stop t) start stop t.length b).deleted = false) :
    (carried d (d.spliced start stop t) start stop t.length a).Before
      (carried d (d.spliced start stop t) start stop t.length b) := by
  obtain ⟨spans, -, ends⟩ := carriedEnds sound live h ordered still
  obtain ⟨spans', begins, -⟩ := carriedEnds sound live' h' ordered still'
  rw [beforeIff spans spans', begins]
  exact Nat.le_trans ends (keptOrder ((beforeIff h h').mp order) ordered)

theorem coversOne {p : Point} (order : a.Before b) (covers : a.covers p = true) : b.covers p = false := by
  apply Bool.eq_false_iff.mpr
  intro covers'
  simp only [Anchor.covers, Bool.and_eq_true, beq_iff_eq, decide_eq_true_eq] at covers covers'
  rcases order with above | ⟨-, left⟩ <;> omega

end Anchor

namespace AnchorTable

def Ordered (t : AnchorTable) (i j : Int) : Prop :=
  ∀ a b, t.get? i = some a → t.get? j = some b → a.deleted = false → b.deleted = false → a.Before b

def Apart (t : AnchorTable) : Prop := ∀ i j, i ≠ j → t.Ordered i j ∨ t.Ordered j i

def CoversOnce (t : AnchorTable) : Prop :=
  ∀ p i j a b, t.get? i = some a → t.get? j = some b → a.deleted = false → b.deleted = false →
    a.covers p = true → b.covers p = true → i = j

theorem apartCoversOnce {t : AnchorTable} (apart : t.Apart) : t.CoversOnce := by
  intro p i j a b found found' live live' covers covers'
  apply Classical.byContradiction
  intro differs
  rcases apart i j differs with ordered | ordered
  · rw [Anchor.coversOne (ordered a b found found' live live') covers] at covers'
    contradiction
  · rw [Anchor.coversOne (ordered b a found' found live' live) covers'] at covers
    contradiction

theorem apartPairwise {t : AnchorTable}
    (apart : t.entries.Pairwise fun e f => e.2.Before f.2 ∨ f.2.Before e.2) : t.Apart := by
  intro i j differs
  by_cases order : t.Ordered i j
  · exact .inl order
  refine .inr fun b a found' found live' live => ?_
  have symmetric : Std.Symm fun e f : Int × Anchor => e.2.Before f.2 ∨ f.2.Before e.2 :=
    ⟨fun _ _ => Or.symm⟩
  have either := apart.forall (Table.memOfGet found) (Table.memOfGet found')
    fun same => differs (congrArg Prod.fst same)
  refine either.resolve_left fun before => order fun c c' here here' _ _ => ?_
  cases found.symm.trans here
  cases found'.symm.trans here'
  exact before

theorem carriedOrdered {t : AnchorTable} {d : Document} {start stop : Nat} {s : Text} (sound : d.Sound)
    (le : start ≤ stop) {i j : Int} (ordered : t.Ordered i j)
    (fits : ∀ a, t.get? i = some a → a.Fits d) (fits' : ∀ a, t.get? j = some a → a.Fits d) :
    Ordered (t.mapValues (Anchor.carried d (d.spliced start stop s) start stop s.length)) i j := by
  intro moved moved' found found' still still'
  rw [Table.getMap] at found found'
  obtain ⟨a, old, rfl⟩ := Option.map_eq_some_iff.mp found
  obtain ⟨b, old', rfl⟩ := Option.map_eq_some_iff.mp found'
  have live := Anchor.liveBefore still
  have live' := Anchor.liveBefore still'
  exact Anchor.carriedBefore sound live live' (fits a old live) (fits' b old' live') le
    (ordered a b old old' live live') still still'

end AnchorTable

end ModalNotes
