import ModalNotes.Keymap.Token
import ModalNotes.Proofs.Keymap
import ModalNotes.Proofs.Keymap.Stroke

/-! Presses and strokes. A press leads to the binding of its stroke exactly when its token is the stroke's: a
token of a press has the modifiers as they were reported, long names in lower case, and its alias if it has one. -/
namespace ModalNotes

namespace KeyPress

def spelled (key : Text) : Text := if key.length = 1 then key else key.lower

theorem spelledSame {key : Text} : spelled key = key ↔ key.length = 1 ∨ key.lower = key := by
  unfold spelled
  split
  · rename_i single
    exact ⟨fun _ => .inl single, fun _ => rfl⟩
  · rename_i long
    exact ⟨.inr, fun known => known.resolve_left long⟩

theorem tokenPressed {key : Text} {held : List Text} (plain : ∀ m ∈ held, m ≠ [] ∧ m.lower = m) :
    token key held = (aliases.lookup (held.flatMap (· ++ ['+']) ++ spelled key)).getD
      (held.flatMap (· ++ ['+']) ++ spelled key) := by
  have kept : held.filter (!·.isEmpty) = held :=
    List.filter_eq_self.mpr fun m member => by simp [(plain m member).1]
  have low : held.map Text.lower = held :=
    (List.map_congr_left fun m member => (plain m member).2).trans (List.map_id held)
  unfold token
  dsimp only
  rw [kept, low, Text.joinBehind]
  rfl

theorem aliasTargets : ∀ a ∈ aliases, '+' ∉ a.2 ∧ spelled a.2 = a.2 ∧ aliases.lookup a.2 = none := by
  decide +kernel

theorem heldNone {held : List Text} {last : Text} (free : '+' ∉ held.flatMap (· ++ ['+']) ++ last) :
    held = [] := by
  cases held with
  | nil => rfl
  | cons m rest => simp at free

structure Spells (held : List Text) (s : Stroke) : Prop where
  key : s.key.length = 1 ∨ s.key.lower = s.key
  order : (Stroke.mk s.key held).token = s.token
  own : s.token ∉ aliases.map Prod.fst

instance (held : List Text) (s : Stroke) : Decidable (Spells held s) :=
  decidable_of_iff ((s.key.length = 1 ∨ s.key.lower = s.key) ∧
      (Stroke.mk s.key held).token = s.token ∧ s.token ∉ aliases.map Prod.fst)
    ⟨fun ⟨key, order, own⟩ => ⟨key, order, own⟩, fun ⟨key, order, own⟩ => ⟨key, order, own⟩⟩

section
variable {s : Stroke} {held : List Text}

theorem tokenOfSpells (plain : ∀ m ∈ held, m ≠ [] ∧ m.lower = m) (spells : Spells held s) :
    token s.key held = s.token := by
  have same := spells.order
  rw [Stroke.tokenWritten] at same
  have absent : aliases.lookup s.token = none := by
    refine List.lookup_eq_none_iff.mpr fun a member => bne_iff_ne.mpr fun named => spells.own ?_
    exact List.mem_map.mpr ⟨a, member, named.symm⟩
  rw [tokenPressed plain, spelledSame.mpr spells.key, same, absent]
  rfl

theorem spellsOfToken (plain : ∀ m ∈ held, m ≠ [] ∧ m.lower = m) (order : held.Perm s.modifiers)
    (same : token s.key held = s.token) : Spells held s := by
  rw [tokenPressed plain] at same
  cases found : aliases.lookup (held.flatMap (· ++ ['+']) ++ spelled s.key) with
  | none =>
    rw [found, Option.getD_none, Stroke.tokenWritten] at same
    -- The same modifiers in another order are as long, so that what is behind them is the key.
    have size := (order.flatMap_right (· ++ ['+'])).length_eq
    obtain ⟨front, key⟩ := List.append_inj same size
    refine ⟨spelledSame.mp key, ?_, fun named => ?_⟩
    · rw [Stroke.tokenWritten, Stroke.tokenWritten, front]
    · obtain ⟨a, member, text⟩ := List.mem_map.mp named
      rw [same, ← Stroke.tokenWritten] at found
      exact bne_iff_ne.mp (List.lookup_eq_none_iff.mp found a member) text.symm
  | some target =>
    rw [found, Option.getD_some] at same
    obtain ⟨before, behind, parts, -⟩ := List.lookup_eq_some_iff.mp found
    have member : (_, target) ∈ aliases := parts ▸ List.mem_append_right _ List.mem_cons_self
    obtain ⟨free, long, unnamed⟩ := aliasTargets _ member
    rw [same, Stroke.tokenWritten] at free long unnamed
    have bare : s.modifiers = [] := heldNone free
    have bare' : held = [] := List.Perm.nil_eq (bare ▸ order.symm) ▸ rfl
    rw [bare] at long unnamed
    rw [bare'] at found
    simp only [List.flatMap_nil, List.nil_append] at long unnamed found
    rw [long] at found
    cases unnamed.symm.trans found

theorem orderSame (clean : ∀ m ∈ s.modifiers, '+' ∉ m) (order : held.Perm s.modifiers) :
    (Stroke.mk s.key held).token = s.token ↔ held = s.modifiers := by
  refine ⟨fun same => ?_, fun same => by rw [same]⟩
  rw [Stroke.tokenWritten, Stroke.tokenWritten] at same
  have pieces := congrArg (Text.splitOn '+') same
  rw [Text.splitOnBehind clean, Text.splitOnBehind fun m member => clean m (order.mem_iff.mp member)] at pieces
  exact List.append_cancel_right pieces

end

end KeyPress

namespace Registry

def Reached (r : Registry Action) (b : Binding) (held : List Text) : Prop :=
  ∃ action, r.lookup b.mode (KeyPress.token b.stroke.key held) = some (b, action)

theorem reachedToken {r : Registry Action} {b : Binding} {held : List Text} (consistent : r.Consistent)
    (member : b ∈ r.bindings.values) :
    r.Reached b held ↔ KeyPress.token b.stroke.key held = b.stroke.token := by
  constructor
  · rintro ⟨action, found⟩
    obtain ⟨-, slot, -⟩ := (lookupSome consistent).mp found
    exact (congrArg Prod.snd slot).symm
  · intro same
    obtain ⟨action, -, found⟩ := lookupBound consistent member
    exact ⟨action, same ▸ found⟩

/- A binding is reached from the keyboard if its stroke's token is no alias and its key no long name with
capitals in it, and then by its modifiers in the order of the stroke. -/
theorem pressReaches (requests : List Request) {b : Binding} {given held : List Text}
    (member : b ∈ (({} : Registry Action).after requests).bindings.values)
    (made : Stroke.make b.stroke.key given = .ok b.stroke) (order : held.Perm b.stroke.modifiers) :
    ((({} : Registry Action).after requests).Reached b held ↔ KeyPress.Spells held b.stroke) ∧
      ((∀ m ∈ b.stroke.modifiers, '+' ∉ m) →
        ((Stroke.mk b.stroke.key held).token = b.stroke.token ↔ held = b.stroke.modifiers)) := by
  have plain : ∀ m ∈ held, m ≠ [] ∧ m.lower = m := by
    intro m inside
    have inside' := order.mem_iff.mp inside
    rw [(Stroke.makeOk made).2] at inside'
    exact Stroke.normalizedLow inside'
  refine ⟨?_, fun clean => KeyPress.orderSame clean order⟩
  rw [reachedToken (consistentAfter consistentEmpty requests) member]
  exact ⟨KeyPress.spellsOfToken plain order, KeyPress.tokenOfSpells plain⟩

def chord : Binding :=
  { Keymap.binding .normal ['l'] ['a'] with stroke := ⟨['l'], ["ctrl".toList, "shift".toList]⟩ }

def withChord : List Request := [.action (Keymap.named "a" .noop "") false, .bind chord false]

theorem chordMissed : (({} : Registry Action).after withChord).Reached chord ["ctrl".toList, "shift".toList] ∧
    ¬ (({} : Registry Action).after withChord).Reached chord ["shift".toList, "ctrl".toList] := by
  have member : chord ∈ (({} : Registry Action).after withChord).bindings.values := by decide +kernel
  have low : Stroke.normalize ["Shift".toList, "ctrl".toList] = chord.stroke.modifiers := by decide +kernel
  have made : Stroke.make chord.stroke.key ["Shift".toList, "ctrl".toList] = .ok chord.stroke := by
    rw [Stroke.make, low]
    rfl
  have reached (held) (order : List.Perm held chord.stroke.modifiers) :=
    (pressReaches withChord member made order).1
  refine ⟨(reached _ (.refl _)).mpr (by decide +kernel), fun found => ?_⟩
  exact absurd ((reached _ (.swap _ _ [])).mp found) (by decide +kernel)

theorem standardStrokes : ∀ b ∈ Keymap.bindings, b.stroke.modifiers.length ≤ 1 ∧
    (∀ m ∈ b.stroke.modifiers, m ≠ [] ∧ m.lower = m) ∧ KeyPress.Spells b.stroke.modifiers b.stroke := by
  decide +kernel

theorem standardReached {b : Binding} (member : b ∈ Keymap.standard.state.bindings.values) {held : List Text}
    (order : held.Perm b.stroke.modifiers) : Keymap.standard.state.Reached b held := by
  obtain ⟨few, plain, spells⟩ := standardStrokes b (Keymap.standardLoaded.bindings ▸ member)
  have same : held = b.stroke.modifiers := by
    match h : b.stroke.modifiers with
    | [] => exact List.Perm.eq_nil (h ▸ order)
    | [m] => exact List.perm_singleton.mp (h ▸ order)
    | _ :: _ :: _ => simp [h] at few
  refine (reachedToken Keymap.standardLoaded.consistent member).mpr ?_
  rw [same]
  exact KeyPress.tokenOfSpells plain spells

end Registry

end ModalNotes
