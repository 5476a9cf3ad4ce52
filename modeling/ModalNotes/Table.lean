/-! Tables: keys with values, in the order in which the keys first came. Storing under a key that is
there already keeps its place. -/
namespace ModalNotes

structure Table (κ α : Type) where
  entries : List (κ × α) := []
  deriving DecidableEq, Repr

namespace Table

variable {κ α : Type} [DecidableEq κ]

def get? (t : Table κ α) (k : κ) : Option α := t.entries.lookup k

def contains (t : Table κ α) (k : κ) : Bool := (t.get? k).isSome

def keys (t : Table κ α) : List κ := t.entries.map Prod.fst

def values (t : Table κ α) : List α := t.entries.map Prod.snd

def putIn (k : κ) (a : α) : List (κ × α) → List (κ × α)
  | [] => [(k, a)]
  | e :: rest => if e.1 = k then (k, a) :: rest else e :: putIn k a rest

def put (t : Table κ α) (k : κ) (a : α) : Table κ α := ⟨putIn k a t.entries⟩

def putAll (t : Table κ α) (more : List (κ × α)) : Table κ α :=
  more.foldl (fun t e => t.put e.1 e.2) t

def erase (t : Table κ α) (k : κ) : Table κ α := ⟨t.entries.filter (·.1 ≠ k)⟩

def ofList (es : List (κ × α)) : Table κ α := ({} : Table κ α).putAll es

theorem get?_empty (k : κ) : ({} : Table κ α).get? k = none := rfl

theorem lookup_cons_ite (k q : κ) (a : α) (es : List (κ × α)) :
    ((k, a) :: es).lookup q = if q = k then some a else es.lookup q := by
  by_cases h : q = k
  · simp [h]
  · rw [List.lookup_cons, beq_false_of_ne h, if_neg h]

theorem lookup_putIn (k q : κ) (a : α) (es : List (κ × α)) :
    (putIn k a es).lookup q = if q = k then some a else es.lookup q := by
  induction es with
  | nil => simp only [putIn, lookup_cons_ite]
  | cons e rest ih =>
    obtain ⟨j, b⟩ := e
    simp only [putIn]
    by_cases hj : j = k
    · subst hj
      simp only [if_true, lookup_cons_ite]
      split <;> rfl
    · simp only [hj, if_false, lookup_cons_ite, ih]
      by_cases hq : q = j
      · subst hq; simp [hj]
      · simp [hq]

@[simp] theorem get?_put (t : Table κ α) (k q : κ) (a : α) :
    (t.put k a).get? q = if q = k then some a else t.get? q := lookup_putIn k q a t.entries

theorem lookup_filter_ne (k q : κ) (es : List (κ × α)) :
    (es.filter (·.1 ≠ k)).lookup q = if q = k then none else es.lookup q := by
  induction es with
  | nil => simp
  | cons e rest ih =>
    obtain ⟨j, b⟩ := e
    by_cases hj : j = k
    · subst hj
      rw [List.filter_cons_of_neg (by simp), ih, lookup_cons_ite]
      split <;> rfl
    · rw [List.filter_cons_of_pos (by simpa using hj)]
      simp only [lookup_cons_ite, ih]
      by_cases hq : q = j
      · subst hq; simp [hj]
      · simp [hq]

@[simp] theorem get?_erase (t : Table κ α) (k q : κ) :
    (t.erase k).get? q = if q = k then none else t.get? q := lookup_filter_ne k q t.entries

theorem keys_putIn (k : κ) (a : α) (es : List (κ × α)) :
    (putIn k a es).map Prod.fst =
      if k ∈ es.map Prod.fst then es.map Prod.fst else es.map Prod.fst ++ [k] := by
  induction es with
  | nil => rfl
  | cons e rest ih =>
    obtain ⟨j, b⟩ := e
    simp only [putIn]
    by_cases hj : j = k
    · subst hj; simp
    · simp only [hj, if_false, List.map_cons, ih, List.mem_cons, Ne.symm hj, false_or]
      split <;> rfl

theorem keys_put (t : Table κ α) (k : κ) (a : α) :
    (t.put k a).keys = if k ∈ t.keys then t.keys else t.keys ++ [k] := keys_putIn k a t.entries

end Table

end ModalNotes
