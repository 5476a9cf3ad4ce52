import Mathlib.Data.List.DropRight
import ModalNotes.Document.Word

/-! Words of a line. A word starts where a character that is no blank follows none of its class. On from a column
the first word start is found, back from one the last, or else the end or the head of the line. -/
namespace ModalNotes

namespace Text

def StartsWord (s : Text) (col : Nat) : Prop :=
  ∃ c, s[col]? = some c ∧ isBlank c = false ∧
    (col = 0 ∨ ∃ left, s[col - 1]? = some left ∧ CharClass.of left ≠ CharClass.of c)

theorem classBlank {c : Char} : CharClass.of c = .blank ↔ isBlank c = true := by
  unfold CharClass.of
  split
  · rename_i blank
    simp [blank]
  · rename_i solid
    split <;> simp [solid]

theorem blankNoStart {s : Text} {col : Nat} {c : Char} (found : s[col]? = some c)
    (blank : isBlank c = true) : ¬ s.StartsWord col := by
  rintro ⟨d, found', solid, -⟩
  cases found.symm.trans found'
  exact Bool.false_ne_true (solid.symm.trans blank)

theorem insideNoStart {s : Text} {col : Nat} {left c : Char} (positive : col ≠ 0)
    (before : s[col - 1]? = some left) (found : s[col]? = some c)
    (same : CharClass.of left = CharClass.of c) : ¬ s.StartsWord col := by
  rintro ⟨d, found', -, head | ⟨left', before', other⟩⟩
  · exact positive head
  · cases found.symm.trans found'
    cases before.symm.trans before'
    exact other same

theorem StartsWord.inside {s : Text} {col : Nat} (starts : s.StartsWord col) : col < s.length := by
  obtain ⟨c, found, -⟩ := starts
  exact (List.getElem?_eq_some_iff.mp found).1

def skip (p : Char → Bool) (s : Text) (col : Nat) : Nat := col + ((s.drop col).takeWhile p).length

theorem leSkip (p : Char → Bool) (s : Text) (col : Nat) : col ≤ s.skip p col := Nat.le_add_right _ _

theorem skipHolds {p : Char → Bool} {s : Text} {col i : Nat} (first : col ≤ i)
    (last : i < s.skip p col) : ∃ c, s[i]? = some c ∧ p c = true := by
  obtain ⟨k, rfl⟩ := Nat.exists_eq_add_of_le first
  have short : k < ((s.drop col).takeWhile p).length := by
    rw [skip] at last
    omega
  have place := (List.takeWhile_prefix p (l := s.drop col)).getElem short
  refine ⟨_, ?_, List.mem_takeWhile_imp (List.getElem_mem short)⟩
  rw [place, ← List.getElem?_drop, List.getElem?_eq_getElem]

theorem takeWhileStops {p : Char → Bool} {s : Text} {c : Char} (found : s[(s.takeWhile p).length]? = some c) :
    p c = false := by
  induction s with
  | nil => contradiction
  | cons d rest ih =>
    rw [List.takeWhile_cons] at found
    split at found
    · exact ih found
    · rename_i stops
      cases found
      exact Bool.eq_false_iff.mpr stops

theorem skipStops {p : Char → Bool} {s : Text} {col : Nat} {c : Char}
    (found : s[s.skip p col]? = some c) : p c = false := by
  rw [skip, ← List.getElem?_drop] at found
  exact takeWhileStops found

theorem skipBlankSkips (s : Text) (col : Nat) : s.skipBlank col = s.skip isBlank col := rfl

theorem skipRunSkips {s : Text} {col : Nat} {c : Char} {rest : Text} (cut : s.drop col = c :: rest) :
    s.skipRun col = s.skip (CharClass.of · == CharClass.of c) col := by
  simp only [skipRun, skip, cut, beq_self_eq_true, List.takeWhile_cons_of_pos, List.length_cons]
  omega

theorem skipBlankPasses {s : Text} {col i : Nat} (first : col ≤ i) (last : i < s.skipBlank col) :
    ¬ s.StartsWord i := by
  obtain ⟨c, found, blank⟩ := skipHolds first last
  exact blankNoStart found blank

theorem skipBlankStarts {s : Text} {col : Nat} (inside : s.skipBlank col < s.length)
    (bound : ∀ c, s[col]? = some c → isBlank c = false → s.StartsWord col) :
    s.StartsWord (s.skipBlank col) := by
  obtain ⟨c, found⟩ : ∃ c, s[s.skipBlank col]? = some c := ⟨_, List.getElem?_eq_getElem inside⟩
  have solid : isBlank c = false := skipStops found
  rcases Nat.eq_or_lt_of_le (leSkip isBlank s col) with none | some'
  · rw [← skipBlankSkips] at none
    rw [← none] at found ⊢
    exact bound c found solid
  · rw [← skipBlankSkips] at some'
    obtain ⟨left, before, blank⟩ := skipHolds (p := isBlank) (Nat.le_sub_one_of_lt some')
      (show s.skipBlank col - 1 < s.skip isBlank col by rw [← skipBlankSkips]; omega)
    refine ⟨_, found, solid, .inr ⟨left, before, fun same => ?_⟩⟩
    rw [classBlank.mpr blank, eq_comm, classBlank] at same
    exact Bool.false_ne_true (solid.symm.trans same)

theorem nextWordColCases {s : Text} {col : Nat} (inside : col < s.length) :
    ∃ start, col ≤ start ∧ s.nextWordCol col = s.skipBlank start ∧ col < s.nextWordCol col ∧
      (∀ i, col < i → i < start → ¬ s.StartsWord i) ∧
      ∀ c, s[start]? = some c → isBlank c = false → s.StartsWord start := by
  have cut := List.drop_eq_getElem_cons inside
  have found := List.getElem?_eq_getElem inside
  by_cases blank : CharClass.of s[col] = .blank
  · have passes : s.nextWordCol col = s.skipBlank col := by simp only [nextWordCol, cut, if_pos blank]
    have solid := classBlank.mp blank
    refine ⟨col, Nat.le_refl _, passes, ?_, fun i first last => absurd last (by omega), ?_⟩
    · rw [passes, skipBlank, cut, List.takeWhile_cons_of_pos solid, List.length_cons]
      omega
    · intro c found' other
      cases found.symm.trans found'
      exact absurd (other.symm.trans solid) Bool.false_ne_true
  · have passes : s.nextWordCol col = s.skipBlank (s.skipRun col) := by
      simp only [nextWordCol, cut, if_neg blank]
    have run := skipRunSkips cut
    have further : col < s.skipRun col := by
      simp only [skipRun, cut]
      omega
    refine ⟨s.skipRun col, Nat.le_of_lt further, passes, ?_, fun i first last => ?_, fun c found' other => ?_⟩
    · rw [passes]
      exact Nat.lt_of_lt_of_le further (leSkip isBlank s _)
    · rw [run] at last
      obtain ⟨c, here, own⟩ := skipHolds (Nat.le_of_lt first) last
      obtain ⟨left, before, own'⟩ := skipHolds (p := (CharClass.of · == CharClass.of s[col]))
        (Nat.le_sub_one_of_lt first) (Nat.lt_of_le_of_lt (Nat.sub_le i 1) last)
      exact insideNoStart (Nat.ne_of_gt (Nat.zero_lt_of_lt first)) before here
        ((beq_iff_eq.mp own').trans (beq_iff_eq.mp own).symm)
    · obtain ⟨left, before, own⟩ := skipHolds (p := (CharClass.of · == CharClass.of s[col]))
        (Nat.le_sub_one_of_lt further) (by rw [← run]; omega)
      refine ⟨c, found', other, .inr ⟨left, before, ?_⟩⟩
      rw [run] at found'
      have differs := skipStops found'
      rw [beq_eq_false_iff_ne] at differs
      exact fun same => differs (same.symm.trans (beq_iff_eq.mp own))

theorem nextWordColPasses {s : Text} {col i : Nat} (first : col < i) (last : i < s.nextWordCol col) :
    ¬ s.StartsWord i := by
  by_cases inside : col < s.length
  · obtain ⟨start, -, passes, -, free, -⟩ := nextWordColCases inside
    by_cases early : i < start
    · exact free i first early
    · exact skipBlankPasses (Nat.le_of_not_lt early) (passes ▸ last)
  · rw [nextWordCol, List.drop_eq_nil_of_le (Nat.le_of_not_lt inside)] at last
    exact absurd last (Nat.not_lt_of_lt first)

theorem nextWordColStarts {s : Text} {col : Nat} (inside : s.nextWordCol col < s.length) :
    col < s.nextWordCol col ∧ s.StartsWord (s.nextWordCol col) := by
  have room : col < s.length := by
    refine Nat.lt_of_not_le fun past => ?_
    rw [nextWordCol, List.drop_eq_nil_of_le past] at inside
    exact absurd inside (Nat.not_lt_of_le past)
  obtain ⟨start, -, passes, further, -, bound⟩ := nextWordColCases room
  refine ⟨further, ?_⟩
  rw [passes] at inside ⊢
  exact skipBlankStarts inside bound

def unskip (p : Char → Bool) (s : Text) (col : Nat) : Nat := ((s.take col).reverse.dropWhile p).length

theorem unskipSucc {p : Char → Bool} {s : Text} {col : Nat} {c : Char} (found : s[col]? = some c) :
    s.unskip p (col + 1) = if p c then s.unskip p col else col + 1 := by
  have inside := (List.getElem?_eq_some_iff.mp found).1
  rw [unskip, List.take_add_one, found, Option.toList_some, List.reverse_append, List.reverse_singleton,
    List.singleton_append, List.dropWhile_cons]
  split
  · rfl
  · rw [List.length_cons, List.length_reverse, List.length_take]
    omega

theorem unskipLe (p : Char → Bool) (s : Text) (col : Nat) : s.unskip p col ≤ col := by
  have rest := (List.dropWhile_sublist p (l := (s.take col).reverse)).length_le
  rw [List.length_reverse, List.length_take] at rest
  exact Nat.le_trans rest (Nat.min_le_left _ _)

theorem unskipHolds {p : Char → Bool} {s : Text} {col i : Nat} (short : col ≤ s.length)
    (first : s.unskip p col ≤ i) (last : i < col) : ∃ c, s[i]? = some c ∧ p c = true := by
  induction col with
  | zero => contradiction
  | succ col ih =>
    have found := List.getElem?_eq_getElem short
    rw [unskipSucc found] at first
    split at first
    · rename_i holds
      rcases Nat.eq_or_lt_of_le (Nat.le_of_lt_succ last) with rfl | before
      · exact ⟨_, found, holds⟩
      · exact ih (Nat.le_of_lt short) first before
    · omega

theorem unskipStops {p : Char → Bool} {s : Text} {col : Nat} (short : col ≤ s.length)
    (some' : s.unskip p col ≠ 0) : ∃ c, s[s.unskip p col - 1]? = some c ∧ p c = false := by
  induction col with
  | zero => exact absurd (Nat.le_zero.mp (unskipLe p s 0)) some'
  | succ col ih =>
    have found := List.getElem?_eq_getElem short
    rw [unskipSucc found] at some' ⊢
    split
    · rename_i holds
      rw [if_pos holds] at some'
      exact ih (Nat.le_of_lt short) some'
    · rename_i stops
      exact ⟨_, found, Bool.eq_false_iff.mpr stops⟩

theorem unskipTake (p : Char → Bool) (s : Text) (col : Nat) :
    (s.take col).reverse.dropWhile p = (s.take (s.unskip p col)).reverse := by
  have front : ((s.take col).reverse.dropWhile p).reverse <+: s :=
    ((List.rdropWhile_prefix p (s.take col))).trans (List.take_prefix col s)
  rw [List.prefix_iff_eq_take, List.length_reverse] at front
  rw [← List.reverse_reverse ((s.take col).reverse.dropWhile p), front]
  rfl

theorem wordBeginCases {s : Text} {col : Nat} (short : col ≤ s.length) :
    s.unskip isBlank col = 0 ∧ s.wordBegin col = 0 ∨
      ∃ c, isBlank c = false ∧ s.wordBegin col < s.unskip isBlank col ∧
        s.wordBegin col = s.unskip (CharClass.of · == CharClass.of c) (s.unskip isBlank col) := by
  have rest := unskipTake isBlank s col
  by_cases none : s.unskip isBlank col = 0
  · rw [none] at rest
    exact .inl ⟨none, by simp only [wordBegin, rest]; rfl⟩
  · obtain ⟨c, found, solid⟩ := unskipStops short none
    obtain ⟨k, size⟩ := Nat.exists_eq_succ_of_ne_zero none
    rw [size, Nat.succ_sub_one] at found
    rw [size, List.take_add_one, found, Option.toList_some, List.reverse_append, List.reverse_singleton,
      List.singleton_append] at rest
    have run : s.wordBegin col = s.unskip (CharClass.of · == CharClass.of c) k := by
      simp only [wordBegin, rest]
      rfl
    have before := unskipLe (CharClass.of · == CharClass.of c) s k
    refine .inr ⟨c, solid, by omega, ?_⟩
    rw [size, unskipSucc found, if_pos (by simp), run]

theorem wordBeginLt {s : Text} {col : Nat} (short : col ≤ s.length) (positive : col ≠ 0) :
    s.wordBegin col < col := by
  have blanks := unskipLe isBlank s col
  rcases wordBeginCases short with ⟨-, head⟩ | ⟨c, -, before, -⟩ <;> omega

theorem wordBeginPasses {s : Text} {col i : Nat} (short : col ≤ s.length) (first : s.wordBegin col < i)
    (last : i < col) : ¬ s.StartsWord i := by
  by_cases late : s.unskip isBlank col ≤ i
  · obtain ⟨c, found, blank⟩ := unskipHolds short late last
    exact blankNoStart found blank
  · rcases wordBeginCases short with ⟨none, -⟩ | ⟨c, -, -, run⟩
    · omega
    · rw [run] at first
      have short' := Nat.le_trans (unskipLe isBlank s col) short
      obtain ⟨d, here, own⟩ := unskipHolds short' (Nat.le_of_lt first) (Nat.lt_of_not_le late)
      obtain ⟨left, before, own'⟩ := unskipHolds (p := (CharClass.of · == CharClass.of c)) short'
        (Nat.le_sub_one_of_lt first) (Nat.lt_of_le_of_lt (Nat.sub_le i 1) (Nat.lt_of_not_le late))
      exact insideNoStart (Nat.ne_of_gt (Nat.zero_lt_of_lt first)) before here
        ((beq_iff_eq.mp own').trans (beq_iff_eq.mp own).symm)

theorem wordBeginStarts {s : Text} {col : Nat} (short : col ≤ s.length) :
    s.StartsWord (s.wordBegin col) ∨ s.wordBegin col = 0 := by
  rcases wordBeginCases short with ⟨-, head⟩ | ⟨c, solid, inside, run⟩
  · exact .inr head
  · refine (Nat.eq_zero_or_pos (s.wordBegin col)).symm.imp_left fun positive => ?_
    have short' := Nat.le_trans (unskipLe isBlank s col) short
    obtain ⟨d, here, own⟩ := unskipHolds (p := (CharClass.of · == CharClass.of c)) short'
      (Nat.le_of_eq run.symm) inside
    obtain ⟨left, before, other⟩ := unskipStops short' (run ▸ Nat.ne_of_gt positive)
    have same : CharClass.of d = CharClass.of c := beq_iff_eq.mp own
    refine ⟨d, here, ?_, .inr ⟨left, run ▸ before, ?_⟩⟩
    · refine Bool.eq_false_iff.mpr fun blank => ?_
      rw [← classBlank, same, classBlank] at blank
      exact Bool.false_ne_true (solid.symm.trans blank)
    · rw [same]
      exact beq_eq_false_iff_ne.mp other

end Text

end ModalNotes
