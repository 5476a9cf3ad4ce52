import ModalNotes.Text.Basic

/-! Sets of code points, written as closed ranges in ascending order. -/
namespace ModalNotes.Text

def inRanges : List (Nat × Nat) → Nat → Bool
  | [], _ => false
  | (low, high) :: rest, n => if n < low then false else n ≤ high || inRanges rest n

theorem exists_of_inRanges {ranges : List (Nat × Nat)} {n : Nat} (h : inRanges ranges n = true) :
    ∃ r ∈ ranges, r.1 ≤ n ∧ n ≤ r.2 := by
  induction ranges with
  | nil => simp [inRanges] at h
  | cons r rest ih =>
    simp only [inRanges] at h
    split at h
    · simp at h
    · next low =>
      simp only [Bool.or_eq_true, decide_eq_true_eq] at h
      rcases h with high | later
      · exact ⟨r, by simp, by omega, high⟩
      · obtain ⟨q, mem, inside⟩ := ih later
        exact ⟨q, by simp [mem], inside⟩

end ModalNotes.Text
