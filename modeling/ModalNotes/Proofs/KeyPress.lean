import ModalNotes.Keymap.Token
import ModalNotes.Text.Digit

/-! Tokens of one character. A token that is a digit is the key itself, pressed without modifiers. -/
namespace ModalNotes

namespace Text

theorem lowerExpansionsNonempty : ∀ e ∈ lowerExpansions, e.2 ≠ [] := by decide

theorem lowerCharNonempty (c : Char) : lowerChar c ≠ [] := by
  unfold lowerChar mapCase
  split
  · rename_i n points found
    have member := lowerExpansionsNonempty _ (List.mem_of_find?_eq_some found)
    simpa using member
  · split <;> simp

theorem lengthLowerAfter (seen s : Text) : s.length ≤ (lowerAfter seen s).length := by
  induction s generalizing seen with
  | nil => exact Nat.zero_le _
  | cons c rest ih =>
    have later := ih (c :: seen)
    have first := List.length_pos_iff.mpr (lowerCharNonempty c)
    simp only [lowerAfter, List.length_append, List.length_cons]
    split
    · simp only [List.length_singleton]
      omega
    · omega

theorem lengthLower (s : Text) : s.length ≤ s.lower.length := lengthLowerAfter [] s

theorem lengthJoinWith (sep piece : Text) (pieces : List Text) (more : pieces ≠ []) :
    (joinWith sep (piece :: pieces)).length =
      piece.length + sep.length + (joinWith sep pieces).length := by
  cases pieces with
  | nil => contradiction
  | cons next rest => simp [joinWith]; omega

end Text

namespace KeyPress

theorem aliasesNoDigit : aliases.all (fun a => a.2.length != 1 || !a.2.any Text.isDigit) = true := by
  decide +kernel

theorem digitToken {name : Text} {modifiers : List Text} {c : Char}
    (h : token name modifiers = [c]) (digit : Text.isDigit c = true) :
    name = [c] ∧ ∀ m ∈ modifiers, m = [] := by
  unfold token at h
  dsimp only at h
  cases found : aliases.lookup (Text.joinWith ['+'] ((modifiers.filter (!·.isEmpty)).map Text.lower ++
      [if name.length = 1 then name else Text.lower name])) with
  | some value =>
    rw [found, Option.getD_some] at h
    subst h
    obtain ⟨before, behind, parts, -⟩ := List.lookup_eq_some_iff.mp found
    have member : (_, [c]) ∈ aliases := parts ▸ List.mem_append_right _ List.mem_cons_self
    have refused := List.all_eq_true.mp aliasesNoDigit _ member
    simp [digit] at refused
  | none =>
    rw [found, Option.getD_none] at h
    cases held : modifiers.filter (!·.isEmpty) with
    | nil =>
      rw [held] at h
      simp only [List.map_nil, List.nil_append, Text.joinWith] at h
      refine ⟨?_, ?_⟩
      · split at h
        · exact h
        · rename_i longer
          have size := Text.lengthLower name
          rw [h, List.length_singleton] at size
          have empty : name = [] := List.eq_nil_of_length_eq_zero (by omega)
          rw [empty] at h
          contradiction
      · intro m member
        have kept := List.filter_eq_nil_iff.mp held m member
        simpa using kept
    | cons m rest =>
      rw [held] at h
      have nonempty : m ≠ [] := by
        have member : m ∈ modifiers.filter (!·.isEmpty) := held ▸ List.mem_cons_self
        simpa using (List.mem_filter.mp member).2
      have size := congrArg List.length h
      rw [List.map_cons, List.cons_append, Text.lengthJoinWith _ _ _ (by simp),
        List.length_singleton, List.length_singleton] at size
      have first := Text.lengthLower m
      have some' := List.length_pos_iff.mpr nonempty
      omega

theorem aliasesLong : ∀ a ∈ aliases, a.1.length ≠ 1 := by decide

theorem tokenAlone {c : Char} {modifiers : List Text} (free : ∀ m ∈ modifiers, m = []) :
    token [c] modifiers = [c] := by
  have held : modifiers.filter (!·.isEmpty) = [] := by
    refine List.filter_eq_nil_iff.mpr fun m member => ?_
    simp [free m member]
  have plain : aliases.lookup [c] = none := by
    refine List.lookup_eq_none_iff.mpr fun a member => ?_
    have long := aliasesLong a member
    refine bne_iff_ne.mpr fun same => long ?_
    rw [← same]
    rfl
  simp only [token, held, List.map_nil, List.nil_append, List.length_singleton, if_true,
    Text.joinWith, plain, Option.getD_none]

theorem tokenSingle (c : Char) : token [c] [] = [c] := tokenAlone fun _ member => nomatch member

end KeyPress

end ModalNotes
