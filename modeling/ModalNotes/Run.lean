import ModalNotes.Fault
import ModalNotes.Trace.Span

/-! Runs: steps on a state that leave a trace and may fail. A failure keeps what the state and the trace
had become by then. Main facts: runs are a lawful monad, and repeating a run is one run after another. -/
namespace ModalNotes

structure Outcome (σ α : Type) where
  state : σ
  trace : List Event
  result : Except Fault α

def Run (σ α : Type) : Type := σ → Outcome σ α

namespace Run

variable {σ τ α β : Type}

def pure (a : α) : Run σ α := fun s => ⟨s, [], .ok a⟩

def bind (m : Run σ α) (f : α → Run σ β) : Run σ β := fun s =>
  match m s with
  | ⟨s, trace, .ok a⟩ => let o := f a s; ⟨o.state, trace ++ o.trace, o.result⟩
  | ⟨s, trace, .error fault⟩ => ⟨s, trace, .error fault⟩

instance : Monad (Run σ) where
  pure := Run.pure
  bind := Run.bind

@[ext] theorem ext {m n : Run σ α} (h : ∀ s, m s = n s) : m = n := funext h

theorem pure_apply (a : α) (s : σ) : (Pure.pure a : Run σ α) s = ⟨s, [], .ok a⟩ := rfl

theorem bind_apply (m : Run σ α) (f : α → Run σ β) (s : σ) : (m >>= f) s =
    match m s with
    | ⟨s, trace, .ok a⟩ => let o := f a s; ⟨o.state, trace ++ o.trace, o.result⟩
    | ⟨s, trace, .error fault⟩ => ⟨s, trace, .error fault⟩ := rfl

instance : LawfulMonad (Run σ) := LawfulMonad.mk' _
  (by
    intro _ m; ext s
    change Run.bind m (fun a => Run.pure a) s = m s
    rcases h : m s with ⟨s', trace, r⟩
    cases r <;> simp [Run.bind, h, Run.pure])
  (by intro _ _ a f; ext s; change Run.bind (Run.pure a) f s = f a s; simp [Run.bind, Run.pure])
  (by
    intro _ _ _ m f g; ext s
    change Run.bind (Run.bind m f) g s = Run.bind m (fun a => Run.bind (f a) g) s
    rcases h : m s with ⟨s', trace, r⟩
    cases r with
    | error e => simp [Run.bind, h]
    | ok a =>
      rcases h' : f a s' with ⟨s'', trace', r'⟩
      cases r' <;> simp [Run.bind, h, h', List.append_assoc])

def get : Run σ σ := fun s => ⟨s, [], .ok s⟩

def put (s : σ) : Run σ Unit := fun _ => ⟨s, [], .ok ()⟩

def modify (f : σ → σ) : Run σ Unit := fun s => ⟨f s, [], .ok ()⟩

def fail (fault : Fault) : Run σ α := fun s => ⟨s, [], .error fault⟩

def emit (event : Event) : Run σ Unit := fun s => ⟨s, [event], .ok ()⟩

def log (entry : Entry) : Run σ Unit := emit (.log entry)

def ofExcept (r : Except Fault α) : Run σ α := fun s => ⟨s, [], r⟩

def on (view : τ → σ) (update : σ → τ → τ) (m : Run σ α) : Run τ α := fun t =>
  let o := m (view t)
  ⟨update o.state t, o.trace, o.result⟩

/-- A failure becomes a result; what the run did stays done. -/
def attempt (m : Run σ α) : Run σ (Except Fault α) := fun s =>
  let o := m s
  ⟨o.state, o.trace, .ok o.result⟩

def spannedWith (span : Span) (notes : Except Fault α → List (Text × Value)) (m : Run σ α) :
    Run σ α := fun s =>
  let o := m s
  let span := (notes o.result).foldl (fun span n => span.add n.1 n.2) span
  let last := match o.result with
    | .ok _ => span.ended
    | .error fault => span.failed fault.reason
  ⟨o.state, o.trace ++ [.log last], o.result⟩

def spanned (span : Span) (m : Run σ α) : Run σ α := spannedWith span (fun _ => []) m

/- The trace so far is kept newest first, so that a long repetition needs no stack. -/
def timesFrom (m : Run σ Unit) : Nat → List Event → Run σ Unit
  | 0, back, s => ⟨s, back.reverse, .ok ()⟩
  | n + 1, back, s =>
    match m s with
    | ⟨s, trace, .ok _⟩ => timesFrom m n (trace.reverseAux back) s
    | ⟨s, trace, .error fault⟩ => ⟨s, (trace.reverseAux back).reverse, .error fault⟩

def times (n : Nat) (m : Run σ Unit) : Run σ Unit := timesFrom m n []

theorem timesFrom_eq (m : Run σ Unit) (n : Nat) (back : List Event) (s : σ) :
    timesFrom m n back s =
      ⟨(times n m s).state, back.reverse ++ (times n m s).trace, (times n m s).result⟩ := by
  induction n generalizing back s with
  | zero => simp [times, timesFrom]
  | succ n ih =>
    rcases h : m s with ⟨s', trace, r⟩
    cases r with
    | error e => simp [times, timesFrom, h, List.reverseAux_eq]
    | ok u =>
      simp only [times, timesFrom, h]
      rw [ih, ih (trace.reverseAux [])]
      simp [List.reverseAux_eq, List.append_assoc]

theorem times_zero (m : Run σ Unit) : times 0 m = Pure.pure () := by
  ext s; simp [times, timesFrom, pure_apply]

theorem times_succ (n : Nat) (m : Run σ Unit) : times (n + 1) m = m >>= fun _ => times n m := by
  ext s
  rw [bind_apply]
  rcases h : m s with ⟨s', trace, r⟩
  cases r with
  | error e => simp [times, timesFrom, h, List.reverseAux_eq]
  | ok u =>
    simp only [times, timesFrom, h]
    rw [timesFrom_eq]
    simp [List.reverseAux_eq, times]

end Run

end ModalNotes
