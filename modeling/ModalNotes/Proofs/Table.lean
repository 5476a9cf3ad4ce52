import ModalNotes.Table

/-! Tables by key: which keys are there, what mapping the values does, and tables whose keys all differ. -/
namespace ModalNotes.Table

variable {κ α : Type} [DecidableEq κ]

def mapValues (f : α → α) (t : Table κ α) : Table κ α := ⟨t.entries.map fun e => (e.1, f e.2)⟩

theorem lookupMap (f : α → α) (es : List (κ × α)) (k : κ) :
    (es.map fun e => (e.1, f e.2)).lookup k = (es.lookup k).map f := by
  induction es with
  | nil => rfl
  | cons e rest ih =>
    obtain ⟨j, a⟩ := e
    rw [List.map_cons, lookup_cons_ite, lookup_cons_ite, ih]
    split <;> rfl

@[simp] theorem getMap (f : α → α) (t : Table κ α) (k : κ) :
    (t.mapValues f).get? k = (t.get? k).map f := lookupMap f t.entries k

omit [DecidableEq κ] in
@[simp] theorem keysMap (f : α → α) (t : Table κ α) : (t.mapValues f).keys = t.keys := by
  simp [mapValues, keys, Function.comp_def]

theorem memOfGet {t : Table κ α} {k : κ} {a : α} (h : t.get? k = some a) : (k, a) ∈ t.entries := by
  obtain ⟨before, behind, parts, -⟩ := List.lookup_eq_some_iff.mp h
  rw [parts]
  exact List.mem_append_right _ List.mem_cons_self

theorem containsIff {t : Table κ α} {k : κ} : t.contains k = true ↔ k ∈ t.keys := by
  obtain ⟨es⟩ := t
  simp only [contains, get?, keys]
  induction es with
  | nil => simp
  | cons e rest ih =>
    obtain ⟨j, a⟩ := e
    rw [lookup_cons_ite, List.map_cons, List.mem_cons, ← ih]
    split <;> simp_all

theorem someOfMem {t : Table κ α} {k : κ} (h : k ∈ t.keys) : ∃ a, t.get? k = some a :=
  Option.isSome_iff_exists.mp (containsIff.mpr h)

theorem memOfSome {t : Table κ α} {k : κ} {a : α} (h : t.get? k = some a) : k ∈ t.keys :=
  List.mem_map.mpr ⟨(k, a), memOfGet h, rfl⟩

theorem getOfMem {t : Table κ α} (distinct : t.keys.Nodup) {k : κ} {a : α}
    (h : (k, a) ∈ t.entries) : t.get? k = some a := by
  obtain ⟨es⟩ := t
  simp only [get?, keys] at *
  induction es with
  | nil => simp at h
  | cons e rest ih =>
    obtain ⟨absent, rest'⟩ := List.nodup_cons.mp distinct
    rw [lookup_cons_ite]
    rcases List.mem_cons.mp h with rfl | inside
    · simp
    · have other : k ≠ e.1 := fun same => absent (List.mem_map.mpr ⟨(k, a), inside, same⟩)
      rw [if_neg other]
      exact ih rest' inside

theorem putNew {t : Table κ α} {k : κ} (fresh : k ∉ t.keys) (a : α) :
    (t.put k a).entries = t.entries ++ [(k, a)] := by
  obtain ⟨es⟩ := t
  simp only [put, keys] at *
  induction es with
  | nil => rfl
  | cons e rest ih =>
    simp only [List.map_cons, List.mem_cons, not_or] at fresh
    rw [putIn, if_neg (Ne.symm fresh.1), ih fresh.2, List.cons_append]

theorem memEntriesPut {t : Table κ α} {k : κ} {a : α} {e : κ × α} (h : e ∈ (t.put k a).entries) :
    e = (k, a) ∨ e ∈ t.entries := by
  obtain ⟨es⟩ := t
  simp only [put] at *
  induction es with
  | nil => simpa [putIn] using h
  | cons first rest ih =>
    rw [putIn] at h
    split at h
    · exact (List.mem_cons.mp h).imp_right (List.mem_cons_of_mem _)
    · rcases List.mem_cons.mp h with same | inside
      · exact .inr (same ▸ List.mem_cons_self)
      · exact (ih inside).imp_right (List.mem_cons_of_mem _)

theorem nodupPut {t : Table κ α} (distinct : t.keys.Nodup) (k : κ) (a : α) : (t.put k a).keys.Nodup := by
  rw [keys_put]
  split
  · exact distinct
  · rename_i fresh
    refine List.nodup_append.mpr ⟨distinct, List.pairwise_singleton _ _, ?_⟩
    rintro j old _ new rfl
    exact fresh (List.mem_singleton.mp new ▸ old)

theorem keysPutMem {t : Table κ α} {j k : κ} (a : α) (h : j ∈ t.keys) : j ∈ (t.put k a).keys := by
  rw [keys_put]
  split
  · exact h
  · exact List.mem_append_left _ h

theorem memPut {t : Table κ α} {k : κ} {a b : α} (h : b ∈ (t.put k a).values) :
    b = a ∨ b ∈ t.values := by
  obtain ⟨e, inside, rfl⟩ := List.mem_map.mp h
  exact (memEntriesPut inside).imp (congrArg Prod.snd) fun old => List.mem_map.mpr ⟨e, old, rfl⟩

theorem keysErase (t : Table κ α) (k : κ) : (t.erase k).keys = t.keys.filter (· ≠ k) := by
  simp [erase, keys, List.filter_map, Function.comp_def]

end ModalNotes.Table
