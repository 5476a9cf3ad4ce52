/-! Texts: lists of characters, cut into lines, searched and sliced. Columns and offsets count
characters. Main facts: a text is its lines put together again, and `occurrences` is in ascending order
and holds every place where a pattern stands. -/
namespace ModalNotes

abbrev Text := List Char

namespace Text

def ofNat (n : Nat) : Text := (toString n).toList

def ofInt (n : Int) : Text := (toString n).toList

def splitOn (sep : Char) : Text → List Text
  | [] => [[]]
  | c :: rest =>
    if c = sep then [] :: splitOn sep rest
    else match splitOn sep rest with
      | [] => [[c]]
      | piece :: pieces => (c :: piece) :: pieces

def cutAt (sep : Char) (s : Text) : Text × Option Text :=
  match s.dropWhile (· != sep) with
  | [] => (s, none)
  | _ :: rest => (s.takeWhile (· != sep), some rest)

def joinWith (sep : Text) : List Text → Text
  | [] => []
  | [piece] => piece
  | piece :: pieces => piece ++ sep ++ joinWith sep pieces

def atMost : Text → Text → Bool
  | [], _ => true
  | _ :: _, [] => false
  | a :: s, b :: t => a.toNat < b.toNat || (a == b && atMost s t)

def lines (s : Text) : List Text := splitOn '\n' s

def unlines (ls : List Text) : Text := joinWith ['\n'] ls

theorem splitOn_ne_nil (sep : Char) (s : Text) : splitOn sep s ≠ [] := by
  cases s with
  | nil => simp [splitOn]
  | cons c rest => unfold splitOn; split <;> (try split) <;> simp

theorem joinWith_splitOn (sep : Char) (s : Text) : joinWith [sep] (splitOn sep s) = s := by
  induction s with
  | nil => rfl
  | cons c rest ih =>
    unfold splitOn
    split
    · next h =>
      subst h
      cases hs : splitOn c rest with
      | nil => exact absurd hs (splitOn_ne_nil c rest)
      | cons p ps => rw [hs] at ih; simp [joinWith, ih]
    · cases hs : splitOn sep rest with
      | nil => exact absurd hs (splitOn_ne_nil sep rest)
      | cons p ps =>
        rw [hs] at ih
        cases ps with
        | nil => simpa [joinWith] using ih
        | cons q qs => simpa [joinWith] using ih

theorem unlines_lines (s : Text) : unlines (lines s) = s := joinWith_splitOn '\n' s

theorem sep_notMem_of_mem_splitOn (sep : Char) (s : Text) : ∀ p ∈ splitOn sep s, sep ∉ p := by
  induction s with
  | nil => simp [splitOn]
  | cons c rest ih =>
    unfold splitOn
    split
    · simpa using ih
    · next h =>
      cases hs : splitOn sep rest with
      | nil => simpa using Ne.symm h
      | cons p ps =>
        rw [hs] at ih
        simp only [List.mem_cons, forall_eq_or_imp] at ih ⊢
        exact ⟨by simpa using ⟨Ne.symm h, ih.1⟩, ih.2⟩

def occurrencesFrom (pattern : Text) : Text → Nat → List Nat
  | [], k => if pattern.isPrefixOf [] then [k] else []
  | c :: rest, k =>
    if pattern.isPrefixOf (c :: rest) then k :: occurrencesFrom pattern rest (k + 1)
    else occurrencesFrom pattern rest (k + 1)

/-- The indices at which the pattern stands, overlaps included; the empty pattern stands everywhere. -/
def occurrences (pattern s : Text) : List Nat := occurrencesFrom pattern s 0

def nextOccurrence? (pattern s : Text) (after : Nat) : Option Nat :=
  (occurrences pattern s).find? (after < ·)

def prevOccurrence? (pattern s : Text) (before : Nat) : Option Nat :=
  ((occurrences pattern s).filter (· < before)).getLast?

def occurrenceFrom? (pattern s : Text) (first : Nat) : Option Nat :=
  (occurrences pattern s).find? (first ≤ ·)

def occurrenceWithin? (pattern s : Text) (stop : Nat) : Option Nat :=
  ((occurrences pattern s).filter (· + pattern.length ≤ stop)).getLast?

theorem mem_occurrencesFrom {pattern s : Text} {k i : Nat} :
    i ∈ occurrencesFrom pattern s k ↔
      k ≤ i ∧ i ≤ k + s.length ∧ pattern <+: s.drop (i - k) := by
  induction s generalizing k with
  | nil =>
    unfold occurrencesFrom
    split
    · next h =>
      have : pattern = [] := by simpa using List.isPrefixOf_iff_prefix.1 h
      subst this
      simp
      omega
    · next h =>
      have : pattern ≠ [] := fun e => h (by simp [e])
      simp [this]
  | cons c rest ih =>
    have step : i ∈ occurrencesFrom pattern rest (k + 1) ↔
        k + 1 ≤ i ∧ i ≤ k + (c :: rest).length ∧ pattern <+: (c :: rest).drop (i - k) := by
      rw [ih]
      constructor
      · rintro ⟨a, b, h⟩
        refine ⟨a, by simp; omega, ?_⟩
        rw [show i - k = (i - (k + 1)) + 1 by omega, List.drop_succ_cons]; exact h
      · rintro ⟨a, b, h⟩
        refine ⟨a, by simp at b; omega, ?_⟩
        rw [show i - k = (i - (k + 1)) + 1 by omega, List.drop_succ_cons] at h; exact h
    unfold occurrencesFrom
    split
    · next h =>
      rw [List.mem_cons, step]
      constructor
      · rintro (rfl | ⟨a, b, h'⟩)
        · exact ⟨Nat.le_refl _, by omega, by simpa using List.isPrefixOf_iff_prefix.1 h⟩
        · exact ⟨by omega, b, h'⟩
      · rintro ⟨a, b, h'⟩
        by_cases e : i = k
        · exact .inl e
        · exact .inr ⟨by omega, b, h'⟩
    · next h =>
      rw [step]
      constructor
      · rintro ⟨a, b, h'⟩; exact ⟨by omega, b, h'⟩
      · rintro ⟨a, b, h'⟩
        refine ⟨?_, b, h'⟩
        rcases Nat.lt_or_ge k i with hl | hl
        · exact hl
        · have : i = k := by omega
          subst this
          exact absurd (List.isPrefixOf_iff_prefix.2 (by simpa using h')) h

theorem mem_occurrences {pattern s : Text} {i : Nat} :
    i ∈ occurrences pattern s ↔ i ≤ s.length ∧ pattern <+: s.drop i := by
  simp [occurrences, mem_occurrencesFrom]

theorem pairwise_occurrencesFrom (pattern s : Text) (k : Nat) :
    (occurrencesFrom pattern s k).Pairwise (· < ·) := by
  induction s generalizing k with
  | nil => unfold occurrencesFrom; split <;> simp
  | cons c rest ih =>
    unfold occurrencesFrom
    split
    · refine List.pairwise_cons.2 ⟨fun i hi => ?_, ih _⟩
      have := (mem_occurrencesFrom.1 hi).1
      omega
    · exact ih _

theorem pairwise_occurrences (pattern s : Text) : (occurrences pattern s).Pairwise (· < ·) :=
  pairwise_occurrencesFrom pattern s 0

/-- An index below zero counts from the end. -/
def nth? {α : Type} (xs : List α) (i : Int) : Option α :=
  if 0 ≤ i then xs[i.toNat]? else if -i ≤ xs.length then xs[(xs.length + i).toNat]? else none

def clampBound (size : Nat) (i : Int) : Nat :=
  if i < 0 then (size + i).toNat else min i.toNat size

def slice (s : Text) (start stop : Int) : Text :=
  let first := clampBound s.length start
  (s.drop first).take (clampBound s.length stop - first)

end Text

end ModalNotes
