import ModalNotes.Keymap.Stroke
import ModalNotes.Proofs.KeyPress
import ModalNotes.Proofs.Position

/-! Strokes in their written form. What is in lower case stays as it is, the modifiers of a stroke are, and a
token is its modifiers, each with a plus behind it, and the key. -/
namespace ModalNotes

namespace Text

def isLow (c : Char) : Bool := lowerChar c == [c] && c != 'Σ'

def lowered : List CaseRun := lowerExpansions.map (fun e => ⟨e.1, e.1, 1, 0⟩) ++ lowerRuns

theorem lowFree {c : Char} (free : ∀ r ∈ lowered, r.holds c.toNat = false) : isLow c = true := by
  have whole : lowerExpansions.find? (·.1 == c.toNat) = none := by
    refine List.find?_eq_none.mpr fun e member same => ?_
    have apart := free ⟨e.1, e.1, 1, 0⟩ (List.mem_append_left _ (List.mem_map.mpr ⟨e, member, rfl⟩))
    simp [CaseRun.holds, beq_iff_eq.mp same] at apart
  have still : lowerRuns.find? (·.holds c.toNat) = none := by
    refine List.find?_eq_none.mpr fun r member => ?_
    simp [free r (List.mem_append_right _ member)]
  have other : c ≠ 'Σ' := by
    rintro rfl
    have inside : ∃ r ∈ lowered, r.holds 'Σ'.toNat = true := by decide +kernel
    obtain ⟨r, member, holds⟩ := inside
    exact Bool.false_ne_true ((free r member).symm.trans holds)
  simp [isLow, lowerChar, mapCase, whole, still, other]

def CaseRun.misses (r : CaseRun) (low high step : Nat) : Bool :=
  Nat.blt high r.first || Nat.blt r.last low ||
    (r.step == 2 && (step == 2 || low == high) && (low + r.first) % 2 == 1)

theorem CaseRun.missed {r : CaseRun} {low high step k : Nat} (misses : r.misses low high step = true)
    (inside : low + k * step ≤ high) : r.holds (low + k * step) = false := by
  refine Bool.eq_false_iff.mpr fun holds => ?_
  simp only [CaseRun.holds, Bool.and_eq_true, decide_eq_true_eq, beq_iff_eq] at holds
  simp only [CaseRun.misses, Bool.or_eq_true, Bool.and_eq_true, Nat.blt_eq, beq_iff_eq] at misses
  obtain ⟨⟨first, last⟩, even⟩ := holds
  obtain (before | behind) | ⟨⟨two, every⟩, odd⟩ := misses
  · omega
  · omega
  · rw [two] at even
    rcases every with rfl | rfl
    · omega
    · have none : k * step = 0 := by omega
      omega

theorem lowRuns : (lowerRuns.all fun r => decide (0 ≤ r.first + r.delta) && lowered.all fun q =>
    q.misses (r.first + r.delta).toNat (r.last + r.delta).toNat r.step) = true := by decide +kernel

theorem lowExpansions : (lowerExpansions.all fun e => (e.2.map Char.ofNat).all isLow) = true := by
  decide +kernel

theorem CaseRun.stepOf {r : CaseRun} {n : Nat} (h : r.holds n = true) :
    ∃ k, n = r.first + k * r.step ∧ n ≤ r.last := by
  simp only [holds, Bool.and_eq_true, decide_eq_true_eq, beq_iff_eq] at h
  obtain ⟨⟨low, high⟩, step⟩ := h
  refine ⟨(n - r.first) / r.step, ?_, high⟩
  rw [Nat.div_mul_cancel (Nat.dvd_of_mod_eq_zero step)]
  omega

theorem lowMoved {r : CaseRun} {n : Nat} (member : r ∈ lowerRuns) (holds : r.holds n = true) :
    isLow (Char.ofNat ((n : Int) + r.delta).toNat) = true := by
  have checked := List.all_eq_true.mp lowRuns r member
  rw [Bool.and_eq_true, decide_eq_true_eq] at checked
  obtain ⟨positive, misses⟩ := checked
  obtain ⟨k, rfl, high⟩ := CaseRun.stepOf holds
  have moved : (((r.first + k * r.step : Nat) : Int) + r.delta).toNat =
      (r.first + r.delta).toNat + k * r.step := by
    omega
  rw [moved]
  by_cases valid : ((r.first + r.delta).toNat + k * r.step).isValidChar
  · have point : (Char.ofNat ((r.first + r.delta).toNat + k * r.step)).toNat =
        (r.first + r.delta).toNat + k * r.step := by
      rw [Char.ofNat, dif_pos valid]
      rfl
    refine lowFree fun q inside => ?_
    rw [point]
    exact CaseRun.missed (List.all_eq_true.mp misses q inside) (by omega)
  · rw [Char.ofNat, dif_neg valid]
    decide +kernel

theorem lowLowerChar {c d : Char} (other : c ≠ 'Σ') (h : d ∈ lowerChar c) : isLow d = true := by
  unfold lowerChar mapCase at h
  split at h
  · rename_i points found
    have low := List.all_eq_true.mp lowExpansions _ (List.mem_of_find?_eq_some found)
    exact List.all_eq_true.mp low d h
  · rename_i plain
    split at h
    · rename_i r found
      have holds : r.holds c.toNat = true := by simpa using List.find?_some found
      exact List.mem_singleton.mp h ▸ lowMoved (List.mem_of_find?_eq_some found) holds
    · rename_i still
      have alone : lowerChar c = [c] := by simp only [lowerChar, mapCase, plain, still]
      rw [List.mem_singleton.mp h]
      simp [isLow, alone, other]

theorem lowLowerAfter (seen s : Text) : ∀ d ∈ lowerAfter seen s, isLow d = true := by
  induction s generalizing seen with
  | nil => exact fun d member => absurd member List.not_mem_nil
  | cons c rest ih =>
    intro d member
    rw [lowerAfter] at member
    rcases List.mem_append.mp member with first | later
    · split at first
      · split at first <;> rw [List.mem_singleton.mp first] <;> decide +kernel
      · rename_i other
        exact lowLowerChar other first
    · exact ih (c :: seen) d later

theorem lowerAfterLow (seen : Text) {s : Text} (low : ∀ c ∈ s, isLow c = true) :
    lowerAfter seen s = s := by
  induction s generalizing seen with
  | nil => rfl
  | cons c rest ih =>
    have first := low c List.mem_cons_self
    simp only [isLow, Bool.and_eq_true, beq_iff_eq, bne_iff_ne] at first
    have later := ih (c :: seen) fun d member => low d (List.mem_cons_of_mem c member)
    rw [lowerAfter, if_neg first.2, first.1, later]
    rfl

theorem lowerLower (s : Text) : s.lower.lower = s.lower := lowerAfterLow [] (lowLowerAfter [] s)

theorem joinBehind (sep : Text) (pieces : List Text) (last : Text) :
    joinWith sep (pieces ++ [last]) = pieces.flatMap (· ++ sep) ++ last := by
  induction pieces with
  | nil => rfl
  | cons piece rest ih =>
    have more : joinWith sep (piece :: (rest ++ [last])) = piece ++ sep ++ joinWith sep (rest ++ [last]) := by
      cases rest <;> rfl
    rw [List.cons_append, more, ih, List.flatMap_cons, ← List.append_assoc]

theorem splitOnBehind {sep : Char} {pieces : List Text} (clean : ∀ p ∈ pieces, sep ∉ p) (rest : Text) :
    splitOn sep (pieces.flatMap (· ++ [sep]) ++ rest) = pieces ++ splitOn sep rest := by
  induction pieces with
  | nil => rfl
  | cons p others ih =>
    have later := ih fun q member => clean q (List.mem_cons_of_mem p member)
    have ended : splitOn sep (sep :: (others.flatMap (· ++ [sep]) ++ rest)) =
        [] :: (others ++ splitOn sep rest) := by
      rw [← later]
      simp [splitOn]
    rw [List.flatMap_cons, List.append_assoc, List.append_assoc, List.singleton_append,
      splitOnAppend (clean p List.mem_cons_self) ended, List.append_nil, List.cons_append]

end Text

namespace Stroke

theorem tokenWritten (s : Stroke) : s.token = s.modifiers.flatMap (· ++ ['+']) ++ s.key :=
  Text.joinBehind ['+'] s.modifiers s.key

theorem normalizedLow {given : List Text} {m : Text} (member : m ∈ normalize given) :
    m ≠ [] ∧ m.lower = m := by
  have inside : m ∈ ((given.map Text.strip).filter (!·.isEmpty)).map Text.lower := by
    rcases List.mem_append.mp member with first | other
    · simpa using (List.mem_filter.mp first).2
    · rw [List.mem_mergeSort] at other
      exact List.mem_eraseDups.mp (List.mem_filter.mp other).1
  obtain ⟨x, kept, rfl⟩ := List.mem_map.mp inside
  have some' : x ≠ [] := by simpa using (List.mem_filter.mp kept).2
  refine ⟨fun empty => some' ?_, Text.lowerLower x⟩
  have size := Text.lengthLower x
  rw [empty] at size
  exact List.eq_nil_of_length_eq_zero (Nat.le_zero.mp size)

theorem makeOk {key : Text} {given : List Text} {s : Stroke} (made : make key given = .ok s) :
    key ≠ [] ∧ s = ⟨key, normalize given⟩ := by
  unfold make at made
  split at made
  · contradiction
  · rename_i some'
    cases made
    exact ⟨by simpa using some', rfl⟩

end Stroke

end ModalNotes
