import ModalNotes.Proofs.Run

/-! What a run leaves alone, whether it fails or not. A part of the state is given by a `view` of it. -/
namespace ModalNotes.Run

variable {σ τ α β γ δ : Type} {view : σ → γ}

def Leaves (view : σ → γ) (m : Run σ α) (s : σ) : Prop := view (m s).state = view s

theorem leavesBind {m : Run σ α} {f : α → Run σ β} {s : σ} (first : Leaves view m s)
    (rest : ∀ a t, Leaves view (f a) t) : Leaves view (m >>= f) s := by
  unfold Leaves at *
  rw [bind_apply]
  rcases h : m s with ⟨t, trace, r⟩
  rw [h] at first
  cases r with
  | ok a => exact (rest a t).trans first
  | error fault => exact first

theorem leavesPure (a : α) (s : σ) : Leaves view (Pure.pure a : Run σ α) s := rfl

theorem leavesLog (entry : Entry) (s : σ) : Leaves view (log entry) s := rfl

theorem leavesOfExcept (r : Except Fault α) (s : σ) : Leaves view (ofExcept r) s := rfl

theorem leavesGet {f : σ → Run σ β} {s : σ} (rest : Leaves view (f s) s) :
    Leaves view (get >>= f) s := rest

theorem leavesReads {r : Except Fault α} {f : α → Run σ β} {s : σ} (rest : ∀ a, Leaves view (f a) s) :
    Leaves view (ofExcept r >>= f) s := by
  cases r with
  | ok a => exact rest a
  | error fault => rfl

theorem leavesPut {s t : σ} (same : view t = view s) : Leaves view (put t) s := same

theorem leavesSpanned {m : Run σ α} {span : Span} {notes : Except Fault α → List (Text × Value)} {s : σ}
    (h : Leaves view m s) : Leaves view (spannedWith span notes m) s := h

theorem leavesTimes {m : Run σ Unit} (step : ∀ s, Leaves view m s) (n : Nat) (s : σ) :
    Leaves view (times n m) s := by
  induction n generalizing s with
  | zero => rw [times_zero]; exact leavesPure () s
  | succ n ih => rw [times_succ]; exact leavesBind (step s) fun _ t => ih t

theorem leavesOn {part : τ → σ} {update : σ → τ → τ} {whole : τ → δ} {m : Run σ α} {t : τ}
    (h : Leaves view m (part t))
    (same : ∀ s, view s = view (part t) → whole (update s t) = whole t) :
    Leaves whole (on part update m) t := same _ h

def Keeps (P : σ → Prop) (m : Run σ α) : Prop := ∀ s, P s → P (m s).state

theorem keptBind {P : σ → Prop} {m : Run σ α} {f : α → Run σ β} {s : σ} (first : P (m s).state)
    (rest : ∀ a, Keeps P (f a)) : P ((m >>= f) s).state := by
  rw [bind_apply]
  rcases h : m s with ⟨t, trace, r⟩
  rw [h] at first
  cases r with
  | ok a => exact rest a t first
  | error fault => exact first

theorem keepsBind {P : σ → Prop} {m : Run σ α} {f : α → Run σ β} (first : Keeps P m)
    (rest : ∀ a, Keeps P (f a)) : Keeps P (m >>= f) := fun s held => keptBind (first s held) rest

theorem keepsGet {P : σ → Prop} {f : σ → Run σ α} (rest : ∀ s, P s → (f s).After s fun _ t => P t) :
    Keeps P (get >>= f) := rest

theorem keepsPure {P : σ → Prop} (a : α) : Keeps P (Pure.pure a : Run σ α) := fun _ held => held

theorem keptReads {P : σ → Prop} {r : Except Fault α} {f : α → Run σ β} {s : σ} (held : P s)
    (rest : ∀ a, r = .ok a → P (f a s).state) : P ((ofExcept r >>= f) s).state := by
  cases r with
  | ok a => exact rest a rfl
  | error fault => exact held

theorem keepsTimes {P : σ → Prop} {m : Run σ Unit} (step : Keeps P m) (n : Nat) : Keeps P (times n m) := by
  induction n with
  | zero =>
    rw [times_zero]
    exact keepsPure ()
  | succ n ih =>
    rw [times_succ]
    exact keepsBind step fun _ => ih

theorem keepsLeaves {P : σ → Prop} {m : Run σ α} (leaves : ∀ s, Leaves view m s)
    (same : ∀ s t, view t = view s → P s → P t) : Keeps P m := fun s held => same s _ (leaves s) held

end ModalNotes.Run
