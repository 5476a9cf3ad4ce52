import ModalNotes.Run

/-! How runs end. `Ends` says that a run succeeds and what holds then; `After` speaks of the result as
well, whatever it is. Each way of building a run has its own rule for both. `Gives` is about the value only. -/
namespace ModalNotes.Run

variable {σ τ α β : Type}

/- From `s` the run ends with a result and a state that satisfy `Q`. -/
def After (m : Run σ α) (s : σ) (Q : Except Fault α → σ → Prop) : Prop := Q (m s).result (m s).state

def Ends (m : Run σ α) (s : σ) (Q : α → σ → Prop) : Prop :=
  ∃ a, (m s).result = .ok a ∧ Q a (m s).state

theorem afterOfEnds {m : Run σ α} {s : σ} {Q : Except Fault α → σ → Prop}
    (h : m.Ends s fun a t => Q (.ok a) t) : m.After s Q := by
  obtain ⟨a, result, post⟩ := h
  simpa only [After, result] using post

theorem endsMono {m : Run σ α} {s : σ} {P Q : α → σ → Prop} (h : m.Ends s P)
    (imp : ∀ a t, P a t → Q a t) : m.Ends s Q := by
  obtain ⟨a, result, post⟩ := h
  exact ⟨a, result, imp _ _ post⟩

theorem endsBoth {m : Run σ α} {s : σ} {P Q : α → σ → Prop} (left : m.Ends s P) (right : m.Ends s Q) :
    m.Ends s fun a t => P a t ∧ Q a t := by
  obtain ⟨a, result, post⟩ := left
  obtain ⟨b, same, other⟩ := right
  cases result.symm.trans same
  exact ⟨a, result, post, other⟩

theorem endsAt {m : Run σ α} {s : σ} {Q : α → σ → Prop} {a : α} (h : m.Ends s Q)
    (result : (m s).result = .ok a) : Q a (m s).state := by
  obtain ⟨b, same, post⟩ := h
  cases result.symm.trans same
  exact post

theorem noFault {a : α} {P : Fault → Prop} (fault : Fault)
    (failed : (Except.ok a : Except Fault α) = .error fault) : P fault := by
  contradiction

theorem endsOk {a : α} {s : σ} {Q : α → σ → Prop} :
    (∃ b, (Except.ok a : Except Fault α) = .ok b ∧ Q b s) ↔ Q a s := by
  constructor
  · intro post
    obtain ⟨b, same, post⟩ := post
    cases same
    exact post
  · exact fun post => ⟨a, rfl, post⟩

@[simp] theorem endsPure {a : α} {s : σ} {Q : α → σ → Prop} :
    (Pure.pure a : Run σ α).Ends s Q ↔ Q a s := endsOk

@[simp] theorem endsBind {m : Run σ α} {f : α → Run σ β} {s : σ} {Q : β → σ → Prop} :
    (m >>= f).Ends s Q ↔ m.Ends s fun a t => (f a).Ends t Q := by
  simp only [Ends, bind_apply]
  rcases m s with ⟨t, trace, r⟩
  cases r <;> simp

@[simp] theorem endsGet {s : σ} {Q : σ → σ → Prop} : (get : Run σ σ).Ends s Q ↔ Q s s := endsOk

@[simp] theorem endsPut {s t : σ} {Q : Unit → σ → Prop} : (put t).Ends s Q ↔ Q () t := endsOk

@[simp] theorem endsModify {f : σ → σ} {s : σ} {Q : Unit → σ → Prop} :
    (modify f).Ends s Q ↔ Q () (f s) := endsOk

@[simp] theorem endsLog {entry : Entry} {s : σ} {Q : Unit → σ → Prop} :
    (log entry).Ends s Q ↔ Q () s := endsOk

@[simp] theorem endsEmit {event : Event} {s : σ} {Q : Unit → σ → Prop} :
    (emit event).Ends s Q ↔ Q () s := endsOk

@[simp] theorem endsOfExcept {r : Except Fault α} {s : σ} {Q : α → σ → Prop} :
    (ofExcept r).Ends s Q ↔ ∃ a, r = .ok a ∧ Q a s := Iff.rfl

@[simp] theorem endsFail {fault : Fault} {s : σ} {Q : α → σ → Prop} :
    (fail fault : Run σ α).Ends s Q ↔ False := by
  simp [Ends, fail]

@[simp] theorem endsOn {view : τ → σ} {update : σ → τ → τ} {m : Run σ α} {t : τ} {Q : α → τ → Prop} :
    (on view update m).Ends t Q ↔ m.Ends (view t) fun a s => Q a (update s t) := Iff.rfl

@[simp] theorem endsSpannedWith {span : Span} {notes : Except Fault α → List (Text × Value)}
    {m : Run σ α} {s : σ} {Q : α → σ → Prop} :
    (spannedWith span notes m).Ends s Q ↔ m.Ends s Q := Iff.rfl

@[simp] theorem endsSpanned {span : Span} {m : Run σ α} {s : σ} {Q : α → σ → Prop} :
    (spanned span m).Ends s Q ↔ m.Ends s Q := Iff.rfl

@[simp] theorem endsAttempt {m : Run σ α} {s : σ} {Q : Except Fault α → σ → Prop} :
    m.attempt.Ends s Q ↔ m.After s Q := endsOk

theorem endsRounds {m : Run σ Unit} {I : Nat → σ → Prop}
    (carry : ∀ k s, I k s → m.Ends s fun _ t => I (k + 1) t) (n : Nat) {k : Nat} {s : σ} (h : I k s) :
    (times n m).Ends s fun _ t => I (k + n) t := by
  induction n generalizing k s with
  | zero => rw [times_zero]; exact endsPure.mpr h
  | succ n ih =>
    rw [times_succ, endsBind]
    refine endsMono (carry k s h) fun _ t carried => ?_
    have rest := ih carried
    rwa [Nat.add_right_comm] at rest

theorem endsTimes {m : Run σ Unit} {I : σ → Prop} (keep : ∀ s, I s → m.Ends s fun _ t => I t)
    (n : Nat) {s : σ} (h : I s) : (times n m).Ends s fun _ t => I t :=
  endsRounds (I := fun _ => I) (k := 0) (fun _ => keep) n h

@[simp] theorem afterPure {a : α} {s : σ} {Q : Except Fault α → σ → Prop} :
    (Pure.pure a : Run σ α).After s Q ↔ Q (.ok a) s := Iff.rfl

theorem afterBind {m : Run σ α} {f : α → Run σ β} {s : σ} {Q : Except Fault β → σ → Prop} :
    (m >>= f).After s Q ↔ m.After s fun r t =>
      match r with
      | .ok a => (f a).After t Q
      | .error fault => Q (.error fault) t := by
  simp only [After, bind_apply]
  rcases m s with ⟨t, trace, r⟩
  cases r <;> rfl

theorem afterBindEnds {m : Run σ α} {f : α → Run σ β} {s : σ} {Q : Except Fault β → σ → Prop}
    (h : m.Ends s fun a t => (f a).After t Q) : (m >>= f).After s Q := by
  obtain ⟨a, result, post⟩ := h
  rw [afterBind, After, result]
  exact post

@[simp] theorem afterOn {view : τ → σ} {update : σ → τ → τ} {m : Run σ α} {t : τ}
    {Q : Except Fault α → τ → Prop} :
    (on view update m).After t Q ↔ m.After (view t) fun r s => Q r (update s t) := Iff.rfl

@[simp] theorem afterSpannedWith {span : Span} {notes : Except Fault α → List (Text × Value)}
    {m : Run σ α} {s : σ} {Q : Except Fault α → σ → Prop} :
    (spannedWith span notes m).After s Q ↔ m.After s Q := Iff.rfl

def Gives (m : Run σ α) (s : σ) (Q : α → Prop) : Prop := ∀ a, (m s).result = .ok a → Q a

theorem givesPure {a : α} {s : σ} {Q : α → Prop} (held : Q a) : (Pure.pure a : Run σ α).Gives s Q := by
  intro b same
  cases same
  exact held

theorem givesBind {m : Run σ α} {f : α → Run σ β} {s : σ} {P : α → Prop} {Q : β → Prop}
    (first : m.Gives s P) (rest : ∀ a t, P a → (f a).Gives t Q) : (m >>= f).Gives s Q := by
  intro b given
  unfold Gives at first
  rw [bind_apply] at given
  rcases h : m s with ⟨t, trace, r⟩
  rw [h] at first given
  cases r with
  | ok a => exact rest a t (first a rfl) b given
  | error fault => contradiction

theorem givesLast {m : Run σ α} {f : α → Run σ β} {s : σ} {Q : β → Prop}
    (rest : ∀ a t, (f a).Gives t Q) : (m >>= f).Gives s Q :=
  givesBind (P := fun _ => True) (fun _ _ => trivial) fun a t _ => rest a t

theorem givesFail {fault : Fault} {s : σ} {Q : α → Prop} : (fail fault : Run σ α).Gives s Q :=
  fun a given => nomatch (given : Except.error fault = .ok a)

theorem givesGet {f : σ → Run σ α} {s : σ} {Q : α → Prop} (rest : (f s).Gives s Q) :
    (get >>= f).Gives s Q := rest

theorem answeredState (m : Run σ α) (b : β) (s : σ) :
    ((do let _ ← m; Pure.pure b : Run σ β) s).state = (m s).state := by
  rw [bind_apply]
  rcases m s with ⟨t, trace, r⟩
  cases r <;> rfl

theorem ignoredState (m : Run σ α) (s : σ) :
    ((do let _ ← m; Pure.pure () : Run σ Unit) s).state = (m s).state := answeredState m () s

theorem afterMono {m : Run σ α} {s : σ} {P Q : Except Fault α → σ → Prop} (h : m.After s P)
    (imp : ∀ r t, P r t → Q r t) : m.After s Q := imp _ _ h

theorem failsBind {m : Run σ α} {f : α → Run σ β} {s : σ} {fault : Fault}
    (failed : m.After s fun r _ => r = .error fault) : (m >>= f).After s fun r _ => r = .error fault := by
  rw [afterBind]
  refine afterMono failed ?_
  intro r t same
  cases same
  rfl

end ModalNotes.Run
