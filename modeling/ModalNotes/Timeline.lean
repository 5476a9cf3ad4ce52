/-! Undo history: what was done, newest first, and what was undone, next redo first. At most `limit`
entries are kept. -/
namespace ModalNotes

structure Timeline (α : Type) where
  limit : Nat := 100
  done : List α := []
  undone : List α := []
  deriving DecidableEq, Repr

namespace Timeline

variable {α : Type}

def push (t : Timeline α) (a : α) : Timeline α :=
  { t with done := (a :: t.done).take t.limit, undone := [] }

def canUndo (t : Timeline α) : Bool := !t.done.isEmpty

def canRedo (t : Timeline α) : Bool := !t.undone.isEmpty

def undo? (t : Timeline α) : Option (α × Timeline α) :=
  match t.done with
  | [] => none
  | a :: rest => some (a, { t with done := rest, undone := a :: t.undone })

def redo? (t : Timeline α) : Option (α × Timeline α) :=
  match t.undone with
  | [] => none
  | a :: rest => some (a, { t with done := a :: t.done, undone := rest })

theorem redo?_undo? {t u : Timeline α} {a : α} (h : t.undo? = some (a, u)) :
    u.redo? = some (a, t) := by
  obtain ⟨limit, done, undone⟩ := t
  cases done with
  | nil => simp [undo?] at h
  | cons b rest =>
    simp only [undo?, Option.some.injEq, Prod.mk.injEq] at h
    obtain ⟨rfl, rfl⟩ := h
    rfl

end Timeline

end ModalNotes
