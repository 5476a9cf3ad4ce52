import ModalNotes.Proofs.Keymap.Registry

/-! Loading a keymap. Actions of different names, and bindings that are nowhere in each other's way, are all
taken, one behind the other. -/
namespace ModalNotes

namespace Registry

variable {α : Type} {r : Registry α}

theorem registersFree {b : Binding} (consistent : r.Consistent) (known : b.actionId ∈ r.actions.keys)
    (free : ∀ c ∈ r.bindings.values, c.slot ≠ b.slot ∧ c.id ≠ b.id) (replacing : Bool) :
    (registerBinding b replacing).Ends r fun _ later => later = r.taking b := by
  have post := registerAfter consistent b replacing
  unfold Run.After at post
  unfold Run.Ends
  cases result : (registerBinding b replacing r).result with
  | error fault =>
    rw [result] at post
    exact absurd post.1 (notRefused known fun _ => free)
  | ok =>
    rw [result] at post
    exact ⟨(), rfl, post.2.1⟩

theorem takingFree {b : Binding} (consistent : r.Consistent)
    (free : ∀ c ∈ r.bindings.values, c.slot ≠ b.slot ∧ c.id ≠ b.id) :
    (r.taking b).bindings.values = r.bindings.values ++ [b] := by
  have kept : (r.bindings.entries.filter fun e => e.2.slot ≠ b.slot && e.1 ≠ b.id) =
      r.bindings.entries := by
    refine List.filter_eq_self.mpr fun e member => ?_
    obtain ⟨slot, id⟩ := free e.2 (List.mem_map.mpr ⟨e, member, rfl⟩)
    simp [slot, consistent.keyed e member, id]
  rw [Table.values, takingBindings, kept, List.map_append]
  rfl

def Apart (b c : Binding) : Prop := b.slot ≠ c.slot ∧ b.id ≠ c.id

instance (b c : Binding) : Decidable (Apart b c) := inferInstanceAs (Decidable (_ ∧ _))

theorem registersAll {bs : List Binding} (consistent : r.Consistent)
    (known : ∀ b ∈ bs, b.actionId ∈ r.actions.keys)
    (apart : (r.bindings.values ++ bs).Pairwise Apart) (replacing : Bool) :
    (Keymap.forEach (registerBinding · replacing) bs).Ends r fun _ later =>
      later.Consistent ∧ later.actions = r.actions ∧ later.bindings.values = r.bindings.values ++ bs ∧
        later.revision = r.revision + bs.length := by
  induction bs generalizing r with
  | nil => exact Run.endsPure.mpr ⟨consistent, rfl, (List.append_nil _).symm, rfl⟩
  | cons b rest ih =>
    have free : ∀ c ∈ r.bindings.values, c.slot ≠ b.slot ∧ c.id ≠ b.id := fun c member =>
      (List.pairwise_append.mp apart).2.2 c member b List.mem_cons_self
    have known' := known b List.mem_cons_self
    have bindings := takingFree consistent free
    refine Run.endsBind.mpr (Run.endsMono (registersFree consistent known' free replacing) ?_)
    rintro _ _ rfl
    refine Run.endsMono (ih (consistent.taking known')
      (fun c member => known c (List.mem_cons_of_mem b member)) ?_) ?_
    · rw [bindings, List.append_assoc]
      exact apart
    · rintro _ later ⟨consistent', actions, values, revision⟩
      refine ⟨consistent', actions, ?_, revision.trans (Nat.succ_add_eq_add_succ _ _)⟩
      rw [values, bindings, List.append_assoc]
      rfl

theorem actsAll {as : List (NamedAction α)} (consistent : r.Consistent)
    (distinct : (r.actions.keys ++ as.map NamedAction.id).Nodup) (replacing : Bool) :
    (Keymap.forEach (registerAction · replacing) as).Ends r fun _ later =>
      later.Consistent ∧ later.bindings = r.bindings ∧
        (later.actions.entries = r.actions.entries ++ as.map fun a => (a.id, a)) ∧
        later.revision = r.revision := by
  induction as generalizing r with
  | nil => exact Run.endsPure.mpr ⟨consistent, rfl, (List.append_nil _).symm, rfl⟩
  | cons a rest ih =>
    have fresh : a.id ∉ r.actions.keys := fun member =>
      (List.nodup_append.mp distinct).2.2 a.id member a.id List.mem_cons_self rfl
    have absent : r.actions.contains a.id = false :=
      Bool.eq_false_iff.mpr fun held => fresh (Table.containsIff.mp held)
    have put := Table.putNew fresh a
    have kept := consistentAction a replacing r consistent
    have taken : (registerAction a replacing).Ends r fun _ later =>
        later = { r with actions := r.actions.put a.id a } := by
      unfold registerAction
      rw [Run.endsBind, Run.endsGet, absent]
      exact Run.endsPut.mpr rfl
    rw [Run.endsAt taken taken.choose_spec.1] at kept
    refine Run.endsBind.mpr (Run.endsMono taken ?_)
    rintro _ _ rfl
    refine Run.endsMono (ih kept ?_) ?_
    · have keys : ({ r with actions := r.actions.put a.id a } : Registry α).actions.keys =
          r.actions.keys ++ [a.id] := (Table.keys_put _ _ _).trans (if_neg fresh)
      rw [keys, List.append_assoc]
      exact distinct
    · rintro _ later ⟨consistent', bindings, actions, revision⟩
      refine ⟨consistent', bindings, ?_, revision⟩
      rw [actions, put, List.append_assoc]
      rfl

end Registry

end ModalNotes
