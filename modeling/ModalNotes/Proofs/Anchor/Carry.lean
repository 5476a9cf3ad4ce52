import ModalNotes.Proofs.Anchor.Span

/-! What a replacement does to an anchor, by where the two lie. An anchor clear of the replaced text keeps
its characters, one inside it is gone, and of any other there remains what was not replaced, with the new
text where that lies between. -/
namespace ModalNotes

namespace Document

variable {d : Document} {start stop : Nat} {t : Text}

def spliced (d : Document) (start stop : Nat) (t : Text) : Document :=
  d.replaceText (d.text.take start ++ (t ++ d.text.drop stop))

theorem soundSpliced (d : Document) (start stop : Nat) (t : Text) : (d.spliced start stop t).Sound :=
  soundReplace d _

theorem splicedText (d : Document) (start stop : Nat) (t : Text) :
    (d.spliced start stop t).text = d.text.take start ++ (t ++ d.text.drop stop) := Text.unlines_lines _

theorem splicedLength (inside : start ≤ d.text.length) :
    (d.spliced start stop t).text.length = start + t.length + (d.text.length - stop) := by
  simp only [splicedText, List.length_append, List.length_take, List.length_drop]
  omega

theorem splicedBetween {m n : Nat} (le : n ≤ start) (inside : n ≤ d.text.length) :
    (d.spliced start stop t).text.between m n = d.text.between m n := by
  simp only [Text.between, ← List.drop_take, splicedText]
  rw [List.take_append_of_le_length (by rw [List.length_take]; omega), List.take_take, Nat.min_eq_left le]

theorem splicedAhead (inside : start ≤ d.text.length) {n : Nat} (le : n ≤ start) :
    (d.spliced start stop t).text.drop n = d.text.between n start ++ (t ++ d.text.drop stop) := by
  rw [splicedText, List.drop_append_of_le_length (by rw [List.length_take]; omega), List.drop_take]
  rfl

theorem splicedBehind (inside : start ≤ d.text.length) (n : Nat) :
    (d.spliced start stop t).text.drop (start + t.length + n) = d.text.drop (stop + n) := by
  have size : (d.text.take start ++ t).length = start + t.length := by
    rw [List.length_append, List.length_take]
    omega
  rw [splicedText, ← List.append_assoc, ← size, List.drop_length_add_append, List.drop_drop]

theorem splicedNew (inside : start ≤ d.text.length) :
    (d.spliced start stop t).text.between start (start + t.length) = t := by
  have none : d.text.between start start = [] := by simp [Text.between]
  rw [Text.between, splicedAhead inside (Nat.le_refl start), none, List.nil_append, Nat.add_sub_cancel_left,
    List.take_left]

theorem splicedShifted (inside : start ≤ d.text.length) {m n : Nat} (behind : stop ≤ m) (le : m ≤ n)
    (ordered : start ≤ stop) :
    (d.spliced start stop t).text.between (m + t.length - (stop - start)) (n + t.length - (stop - start)) =
      d.text.between m n := by
  have place : m + t.length - (stop - start) = start + t.length + (m - stop) := by omega
  have size : n + t.length - (stop - start) - (m + t.length - (stop - start)) = n - m := by omega
  rw [Text.between, size, place, splicedBehind inside, Nat.add_sub_cancel' behind]
  rfl

theorem splicedStart {c : Cursor} (sound : d.Sound) (h : d.Holds c) (le : d.start c.row + c.col ≤ start) :
    (d.spliced start stop t).start c.row = d.start c.row := by
  have cut : d.text.take start = d.text.take (d.start c.row + c.col) ++
      d.text.between (d.start c.row + c.col) start := by
    have parts := List.take_append_drop (d.start c.row + c.col) (d.text.take start)
    rwa [List.take_take, Nat.min_eq_left le, List.drop_take, eq_comm] at parts
  obtain ⟨head, tail, lines⟩ :=
    replacedBehind sound h (d.text.between (d.start c.row + c.col) start ++ (t ++ d.text.drop stop))
  have above : (d.lines.take c.row).length = c.row := by
    rw [List.length_take]
    exact Nat.min_eq_left (Nat.le_of_lt h.1)
  rw [spliced, cut, List.append_assoc, Document.start, lines,
    List.take_append_of_le_length (Nat.le_of_eq above.symm), List.take_of_length_le (Nat.le_of_eq above)]
  rfl

end Document

namespace Anchor

variable {a : Anchor} {d : Document} {start stop : Nat} {t : Text}

/- Where the first character that remains of an anchor stands behind the replacement, and the place behind
the last one. -/
def firstKept (a : Anchor) (d : Document) (start stop : Nat) (t : Text) : Nat :=
  if stop ≤ a.first d then a.first d + t.length - (stop - start)
  else if a.first d < start then a.first d else start + t.length

def lastKept (a : Anchor) (d : Document) (start stop : Nat) (t : Text) : Nat :=
  if a.last d ≤ start then a.last d
  else if stop < a.last d then a.last d + t.length - (stop - start) else start

/- The characters that remain of an anchor, with the new text where it comes to lie between them. -/
def remains (a : Anchor) (d : Document) (start stop : Nat) (t : Text) : Text :=
  (if a.first d < start then d.text.between (a.first d) start else []) ++
    ((if a.first d < start ∧ stop < a.last d then t else []) ++
      (if stop < a.last d then d.text.between stop (a.last d) else []))

/- The replacement is made in front of the anchor or behind it; it may touch the anchor. -/
def Clear (a : Anchor) (d : Document) (start stop : Nat) : Prop := stop ≤ a.first d ∨ a.last d ≤ start

instance (a : Anchor) (d : Document) (start stop : Nat) : Decidable (a.Clear d start stop) :=
  inferInstanceAs (Decidable (_ ∨ _))

theorem firstKeptClear (h : a.Spans d) (clear : a.Clear d start stop) :
    a.firstKept d start stop t =
      if stop ≤ a.first d then a.first d + t.length - (stop - start) else a.first d := by
  have ascends := firstLtLast h
  rw [firstKept]
  split
  · rfl
  · rename_i behind
    have ahead : a.last d ≤ start := clear.resolve_left behind
    rw [if_pos (by omega)]

theorem firstKeptReached (reached : ¬ a.Clear d start stop) :
    a.firstKept d start stop t = if a.first d < start then a.first d else start + t.length :=
  if_neg fun behind => reached (.inl behind)

theorem keptAscends (ordered : start ≤ stop) (reached : ¬ a.Clear d start stop)
    (spared : ¬ (start ≤ a.first d ∧ a.last d ≤ stop)) :
    a.firstKept d start stop t < a.lastKept d start stop t := by
  simp only [Clear, not_or] at reached
  rw [firstKept, lastKept, if_neg reached.1, if_neg reached.2]
  split <;> split <;> omega

theorem carrySpans (live : a.deleted = false) (h : a.Spans d) (ordered : start ≤ stop) (after : Document) :
    carry d after start stop t.length a = .ok (
      if a.last d ≤ start then a
      else if stop ≤ a.first d then
        a.place after ↑(a.first d + t.length - (stop - start)) ↑(a.last d + t.length - (stop - start))
      else if start ≤ a.first d ∧ a.last d ≤ stop then { a with deleted := true }
      else ({ a with edited := true } : Anchor).place after ↑(a.firstKept d start stop t)
        ↑(a.lastKept d start stop t)) := by
  have ascends := firstLtLast h
  unfold carry
  rw [if_neg (by simp [live])]
  simp only [offsetFirst h, offsetLast h, bind, Except.bind]
  by_cases behind : a.last d ≤ start
  · rw [if_pos (Int.ofNat_le.mpr behind), if_pos behind]
  rw [if_neg (by omega), if_neg behind]
  by_cases ahead : stop ≤ a.first d
  · have head : (a.first d : Int) + (t.length - (stop - start)) =
        ↑(a.first d + t.length - (stop - start)) := by
      omega
    have tail : (a.last d : Int) + (t.length - (stop - start)) =
        ↑(a.last d + t.length - (stop - start)) := by
      omega
    rw [if_pos (Int.ofNat_le.mpr ahead), if_pos ahead, head, tail]
  rw [if_neg (by omega), if_neg ahead]
  by_cases inside : start ≤ a.first d ∧ a.last d ≤ stop
  · rw [if_pos (by simpa using inside), if_pos inside]
  rw [if_neg (by simpa using inside), if_neg inside]
  have head : (if (a.first d : Int) < (start : Int) then (a.first d : Int)
      else (start : Int) + (t.length : Int)) = (a.firstKept d start stop t : Int) := by
    rw [firstKept, if_neg ahead]
    split <;> split <;> omega
  have tail : (if (stop : Int) < (a.last d : Int)
      then (a.last d : Int) + ((t.length : Int) - ((stop : Int) - (start : Int))) else (start : Int)) =
        (a.lastKept d start stop t : Int) := by
    rw [lastKept, if_neg behind]
    split <;> split <;> omega
  have climbs : a.firstKept d start stop t < a.lastKept d start stop t :=
    keptAscends ordered (fun clear => clear.elim ahead behind) inside
  rw [head, tail, if_neg (by omega)]

theorem carriedSpans (live : a.deleted = false) (h : a.Spans d) (ordered : start ≤ stop) (after : Document) :
    carried d after start stop t.length a =
      if a.last d ≤ start then a
      else if stop ≤ a.first d then
        a.place after ↑(a.first d + t.length - (stop - start)) ↑(a.last d + t.length - (stop - start))
      else if start ≤ a.first d ∧ a.last d ≤ stop then { a with deleted := true }
      else ({ a with edited := true } : Anchor).place after ↑(a.firstKept d start stop t)
        ↑(a.lastKept d start stop t) := by
  simp only [carried, carrySpans live h ordered after]

theorem takesClean {placed : Anchor} {d' : Document} {begin : Nat} (sound : d.Sound) (h : a.Spans d)
    (takes : Takes a placed d' begin (a.text d)) :
    placed.text d' = a.text d ∧ placed.edited = a.edited := by
  have clean := textClean sound h
  refine ⟨takes.text.trans (Text.firstLineSelf clean), ?_⟩
  rw [takes.edited, decide_eq_false clean, Bool.or_false]

theorem takesLast {placed : Anchor} {d' : Document} {begin : Nat} (sound : d.Sound) (h : a.Spans d)
    (takes : Takes a placed d' begin (a.text d)) : placed.last d' = begin + (a.last d - a.first d) := by
  rw [takes.last, Text.firstLineSelf (textClean sound h), textLength h]

theorem carriedBehind (sound : d.Sound) (h : a.Spans d) (behind : a.last d ≤ start) :
    Takes a a (d.spliced start stop t) (a.first d) (a.text d) := by
  have clean := textClean sound h
  have rows : (d.spliced start stop t).start a.row.toNat = d.start a.row.toNat :=
    Document.splicedStart sound (spansHolds h) behind
  have begins : a.first (d.spliced start stop t) = a.first d := by rw [first, first, rows]
  have ends : a.last (d.spliced start stop t) = a.last d := by rw [last, last, rows]
  refine ⟨?_, rfl, begins, ?_, ?_⟩
  · exact spansOfHolds h.above h.start h.nonempty
      (Document.holdsReplaced sound (spansHolds h) behind (t ++ d.text.drop stop))
  · rw [Text.firstLineSelf clean, text, begins, ends, text]
    exact Document.splicedBetween behind (lastLe h)
  · rw [decide_eq_false clean, Bool.or_false]

theorem carriedAhead (sound : d.Sound) (h : a.Spans d) (ordered : start ≤ stop) (ahead : stop ≤ a.first d) :
    Takes a (a.place (d.spliced start stop t) ↑(a.first d + t.length - (stop - start))
      ↑(a.last d + t.length - (stop - start))) (d.spliced start stop t)
      (a.first d + t.length - (stop - start)) (a.text d) := by
  have ascends := firstLtLast h
  have inside := lastLe h
  have front : start ≤ d.text.length := by omega
  have size : (d.spliced start stop t).text.length = _ := Document.splicedLength front
  have place : a.first d + t.length - (stop - start) = start + t.length + (a.first d - stop) := by omega
  have rest : (d.spliced start stop t).text.drop (a.first d + t.length - (stop - start)) =
      a.text d ++ d.text.drop (a.last d) := by
    rw [place, Document.splicedBehind front, Nat.add_sub_cancel' ahead, text,
      Text.betweenDrop _ (Nat.le_of_lt ascends)]
  have solid : a.text d ≠ [] := by
    rw [← List.length_pos_iff, textLength h]
    omega
  have takes := placeTakes (Document.soundSpliced d start stop t) a
    (by omega : a.first d + t.length - (stop - start) < a.last d + t.length - (stop - start))
    (by omega) (rest ▸ Text.firstLineSome (textClean sound h) solid _)
  rwa [Document.splicedShifted front ahead (Nat.le_of_lt ascends) ordered] at takes

theorem carriedClear (sound : d.Sound) (live : a.deleted = false) (h : a.Spans d) (ordered : start ≤ stop)
    (clear : a.Clear d start stop) :
    Takes a (carried d (d.spliced start stop t) start stop t.length a) (d.spliced start stop t)
      (a.firstKept d start stop t) (a.text d) := by
  have ascends := firstLtLast h
  rw [carriedSpans live h ordered]
  by_cases behind : a.last d ≤ start
  · rw [if_pos behind, firstKept, if_neg (by omega), if_pos (by omega)]
    exact carriedBehind sound h behind
  · have ahead : stop ≤ a.first d := clear.resolve_right behind
    rw [if_neg behind, if_pos ahead, firstKept, if_pos ahead]
    exact carriedAhead sound h ordered ahead

theorem carriedSwallowed (live : a.deleted = false) (h : a.Spans d) (ordered : start ≤ stop)
    (reached : ¬ a.Clear d start stop) (first : start ≤ a.first d) (last : a.last d ≤ stop)
    (after : Document) : carried d after start stop t.length a = { a with deleted := true } := by
  simp only [Clear, not_or] at reached
  rw [carriedSpans live h ordered, if_neg reached.2, if_neg reached.1, if_pos ⟨first, last⟩]

theorem remainsPlaced (h : a.Spans d) (ordered : start ≤ stop) (reached : ¬ a.Clear d start stop)
    (spared : ¬ (start ≤ a.first d ∧ a.last d ≤ stop)) :
    (d.spliced start stop t).text.between (a.firstKept d start stop t) (a.lastKept d start stop t) =
      a.remains d start stop t := by
  have inside := lastLe h
  simp only [Clear, not_or] at reached
  have front : start ≤ d.text.length := by omega
  rw [firstKept, lastKept, remains, if_neg reached.1, if_neg reached.2]
  by_cases ahead : a.first d < start
  · by_cases behind : stop < a.last d
    · have new : start + t.length = stop + t.length - (stop - start) := by omega
      have rest : (d.spliced start stop t).text.between (start + t.length)
          (a.last d + t.length - (stop - start)) = d.text.between stop (a.last d) := by
        rw [new]
        exact Document.splicedShifted front (Nat.le_refl stop) (Nat.le_of_lt behind) ordered
      have both : a.first d < start ∧ stop < a.last d := ⟨ahead, behind⟩
      rw [if_pos both, if_pos ahead, if_pos ahead, if_pos behind, if_pos behind,
        ← Text.betweenAppend _ (Nat.le_of_lt ahead) (by omega),
        ← Text.betweenAppend _ (Nat.le_add_right start t.length) (by omega),
        Document.splicedBetween (Nat.le_refl start) front, Document.splicedNew front, rest]
    · have once : ¬ (a.first d < start ∧ stop < a.last d) := fun both => behind both.2
      rw [if_neg once, if_pos ahead, if_pos ahead, if_neg behind, if_neg behind, List.append_nil,
        List.append_nil]
      exact Document.splicedBetween (Nat.le_refl start) front
  · have behind : stop < a.last d := by omega
    have new : start + t.length = stop + t.length - (stop - start) := by omega
    have once : ¬ (a.first d < start ∧ stop < a.last d) := fun both => ahead both.1
    rw [if_neg once, if_neg ahead, if_neg ahead, if_pos behind, if_pos behind, List.nil_append,
      List.nil_append, new]
    exact Document.splicedShifted front (Nat.le_refl stop) (Nat.le_of_lt behind) ordered

theorem remainsSolid (sound : d.Sound) (h : a.Spans d) (reached : ¬ a.Clear d start stop)
    (spared : ¬ (start ≤ a.first d ∧ a.last d ≤ stop)) :
    Text.firstLine ((d.spliced start stop t).text.drop (a.firstKept d start stop t)) ≠ [] := by
  have inside := lastLe h
  simp only [Clear, not_or] at reached
  have front : start ≤ d.text.length := by omega
  rw [firstKept, if_neg reached.1]
  by_cases ahead : a.first d < start
  · have part : '\n' ∉ d.text.between (a.first d) start :=
      partClean sound h (Nat.le_refl _) (Nat.le_of_lt ahead) (by omega)
    have size : (d.text.between (a.first d) start).length = start - a.first d := Text.betweenLength front
    rw [if_pos ahead, Document.splicedAhead front (Nat.le_of_lt ahead)]
    refine Text.firstLineSome part ?_ _
    rw [← List.length_pos_iff]
    omega
  · have behind : stop < a.last d := by omega
    have part : '\n' ∉ d.text.between stop (a.last d) :=
      partClean sound h (by omega) (Nat.le_of_lt behind) (Nat.le_refl _)
    have size : (d.text.between stop (a.last d)).length = a.last d - stop := Text.betweenLength inside
    have rest : (d.spliced start stop t).text.drop (start + t.length) = d.text.drop stop :=
      Document.splicedBehind front 0
    rw [if_neg ahead, rest, ← Text.betweenDrop _ (Nat.le_of_lt behind)]
    refine Text.firstLineSome part ?_ _
    rw [← List.length_pos_iff]
    omega

theorem carriedCut (sound : d.Sound) (live : a.deleted = false) (h : a.Spans d) (ordered : start ≤ stop)
    (reached : ¬ a.Clear d start stop) (spared : ¬ (start ≤ a.first d ∧ a.last d ≤ stop)) :
    Takes { a with edited := true } (carried d (d.spliced start stop t) start stop t.length a)
      (d.spliced start stop t) (a.firstKept d start stop t) (a.remains d start stop t) := by
  have ascends := firstLtLast h
  have inside := lastLe h
  have piece := remainsPlaced (t := t) h ordered reached spared
  have solid := remainsSolid (t := t) sound h reached spared
  have climbs := keptAscends (t := t) ordered reached spared
  simp only [Clear, not_or] at reached
  have size : (d.spliced start stop t).text.length = _ := Document.splicedLength (by omega)
  rw [carriedSpans live h ordered, if_neg reached.2, if_neg reached.1, if_neg spared, ← piece]
  refine placeTakes (Document.soundSpliced d start stop t) _ climbs ?_ solid
  · rw [lastKept, if_neg reached.2]
    split <;> omega

theorem carryReaches {a : Anchor} {d : Document} (reach : a.deleted = false → a.row ≤ d.lineCount)
    (after : Document) (start stop inserted : Int) :
    carry d after start stop inserted a = .ok (carried d after start stop inserted a) := by
  by_cases gone : a.deleted = true
  · simp only [carried, carryDeleted d after start stop inserted gone]
  · have offset : ∀ col, d.offsetOf ⟨a.row, col⟩ = .ok (d.start a.row.toNat + col) :=
      fun col => if_pos (reach (by simpa using gone))
    obtain ⟨moved, ok⟩ : ∃ moved, carry d after start stop inserted a = .ok moved := by
      unfold carry
      rw [if_neg gone]
      simp only [offset, bind, Except.bind]
      repeat' split
      all_goals exact ⟨_, rfl⟩
    simp only [carried, ok]

end Anchor

namespace AnchorTable

def Reaches (t : AnchorTable) (d : Document) : Prop :=
  ∀ id a, (id, a) ∈ t.entries → a.deleted = false → a.row ≤ d.lineCount

theorem fitsReaches {t : AnchorTable} {d : Document} (fits : t.Fits d) : t.Reaches d :=
  fun id a member live => Int.le_of_lt (fits id a member live).below

theorem shiftReaches {t : AnchorTable} {d : Document} (reach : t.Reaches d) (after : Document)
    (start stop inserted : Int) :
    t.shift d after start stop inserted =
      (t.mapValues (Anchor.carried d after start stop inserted), .ok ()) := by
  have carried := carryInOk t.entries fun id a member =>
    Anchor.carryReaches (reach id a member) after start stop inserted
  simp only [shift, carried, Table.mapValues]

end AnchorTable

end ModalNotes
