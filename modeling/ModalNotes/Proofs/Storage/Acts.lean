import ModalNotes.Storage.Basic
import ModalNotes.Proofs.Run

/-! What runs on a storage do to its working copy, told as partial functions on databases. Whether a run
succeeds depends on the copy and on the legs set to fail, never on what the connection remembers. -/
namespace ModalNotes

def Database.sent {α : Type} (numbers : List Int) (r : Except Fault α) : Option α :=
  if numbers.all Database.fits then r.toOption else none

namespace Connection

theorem bindFits (c : Connection) (numbers : List Int) :
    (∃ d, c.bind numbers = (d, .ok ())) ∧ numbers.all Database.fits = true ∨
      (∃ d fault, c.bind numbers = (d, .error fault)) ∧ numbers.all Database.fits = false := by
  induction numbers generalizing c with
  | nil => exact .inl ⟨⟨c, rfl⟩, rfl⟩
  | cons n rest ih =>
    by_cases fits : Database.fits n = true
    · simp only [bind, List.all_cons, fits, Bool.true_and]
      exact ih _
    · simp only [bind, if_neg fits, List.all_cons, Bool.not_eq_true] at fits ⊢
      exact .inr ⟨⟨_, _, rfl⟩, by simp [fits]⟩

theorem finishResult {α : Type} (c : Connection) (r : Except Fault α) : (c.finish r).2 = r := by
  unfold finish
  split <;> rfl

theorem sendSent {α : Type} (c : Connection) (st : Statement) (numbers : List Int) {d : Database}
    {f : Database → Except Fault α} (needs : st.missingTable? d ≠ none → (f d).toOption = none) :
    (c.send st numbers d f).2.toOption = Database.sent numbers (f d) := by
  have prepared : (∃ c', c.prepare st d = (c', .ok ())) ∨
      (∃ c' fault, c.prepare st d = (c', .error fault)) ∧ st.missingTable? d ≠ none := by
    unfold prepare
    split
    · exact .inl ⟨c, rfl⟩
    · split
      · rename_i table missing
        exact .inr ⟨⟨_, _, rfl⟩, by simp [missing]⟩
      · exact .inl ⟨_, rfl⟩
  unfold send Database.sent
  rcases prepared with ⟨c', ok⟩ | ⟨⟨c', fault, failed⟩, missing⟩
  · simp only [ok]
    rcases (c'.begin st).bindFits numbers with ⟨⟨c'', bound⟩, fits⟩ | ⟨⟨c'', fault, refused⟩, wide⟩
    · simp only [bound, fits, if_true, finishResult]
    · simp only [refused, wide, Bool.false_eq_true, if_false, Except.toOption]
  · rw [needs missing, ite_self]
    simp only [failed, Except.toOption]

end Connection

namespace Storage

variable {α β : Type}

structure Frame (s later : Storage) : Prop where
  committed : later.committed = s.committed
  failing : later.failing = s.failing
  failure : later.failure = s.failure

theorem frameRefl (s : Storage) : Frame s s := ⟨rfl, rfl, rfl⟩

theorem Frame.trans {s t u : Storage} (first : Frame s t) (second : Frame t u) : Frame s u :=
  ⟨second.committed.trans first.committed, second.failing.trans first.failing,
    second.failure.trans first.failure⟩

/- With these legs set to fail, the run does to the copy what `p` says, or fails where `p` says nothing. -/
structure Acts (failing : List Leg) (m : Run Storage α) (p : Database → Option (α × Database)) : Prop where
  frame : ∀ s, Frame s (m s).state
  done : ∀ s a d, s.failing = failing → p s.working = some (a, d) →
    m.Ends s fun b t => b = a ∧ t.working = d
  refused : ∀ s, s.failing = failing → p s.working = none → ∃ fault, (m s).result = .error fault

def Changes (failing : List Leg) (m : Run Storage Unit) (p : Database → Option Database) : Prop :=
  Acts failing m fun d => (p d).map fun later => ((), later)

theorem actsPure (failing : List Leg) (a : α) :
    Acts failing (pure a : Run Storage α) fun d => some (a, d) where
  frame s := frameRefl s
  done s b d _ given := by
    cases given
    exact Run.endsPure.mpr ⟨rfl, rfl⟩
  refused s _ none := by contradiction

theorem actsLog (failing : List Leg) (entry : Entry) :
    Acts failing (Run.log entry) fun d => some ((), d) where
  frame s := frameRefl s
  done s b d _ given := by
    cases given
    exact Run.endsLog.mpr ⟨rfl, rfl⟩
  refused s _ none := by contradiction

theorem actsBind {failing : List Leg} {m : Run Storage α} {f : α → Run Storage β}
    {p : Database → Option (α × Database)} {q : α → Database → Option (β × Database)}
    (first : Acts failing m p) (rest : ∀ a, Acts failing (f a) (q a)) :
    Acts failing (m >>= f) fun d => (p d).bind fun r => q r.1 r.2 where
  frame s := by
    have kept := first.frame s
    rw [Run.bind_apply]
    rcases run : m s with ⟨t, trace, r⟩
    rw [run] at kept
    cases r with
    | error fault => exact kept
    | ok a => exact kept.trans ((rest a).frame t)
  done s b d same given := by
    obtain ⟨⟨a, middle⟩, head, tail⟩ := Option.bind_eq_some_iff.mp given
    rw [Run.endsBind]
    have kept : (m s).state.failing = failing := (first.frame s).failing.trans same
    obtain ⟨a', result, rfl, working⟩ := first.done s a middle same head
    refine ⟨_, result, (rest _).done _ b d kept ?_⟩
    rw [working]
    exact tail
  refused s same none := by
    cases head : p s.working with
    | none =>
      obtain ⟨fault, result⟩ := first.refused s same head
      refine ⟨fault, ?_⟩
      rw [Run.bind_apply]
      rcases run : m s with ⟨t, trace, r⟩
      rw [run] at result
      cases result
      rfl
    | some r =>
      obtain ⟨a, middle⟩ := r
      have kept : (m s).state.failing = failing := (first.frame s).failing.trans same
      obtain ⟨a', result, rfl, working⟩ := first.done s a middle same head
      rw [head, Option.bind_some] at none
      have refused := (rest a').refused (m s).state kept (by rw [working]; exact none)
      rw [Run.bind_apply]
      rcases run : m s with ⟨t, trace, r⟩
      rw [run] at result refused
      cases result
      exact refused

theorem actsWithin {failing : List Leg} (request : Request) {m : Run Storage α}
    {p : Database → Option (α × Database)} (acts : Acts failing m p) :
    Acts failing (within request m) p where
  frame s := acts.frame s
  done s a d same given := by
    obtain ⟨a', result, post⟩ := acts.done s a d same given
    exact ⟨a', by rw [within, result]; rfl, post⟩
  refused s same none := by
    obtain ⟨fault, result⟩ := acts.refused s same none
    simp only [within, result, asRequest]
    split
    · exact ⟨_, rfl⟩
    · exact ⟨_, rfl⟩
    · exact ⟨_, rfl⟩

theorem actsSend (failing : List Leg) (st : Statement) (numbers : List Int) {d : Database}
    {f : Database → Except Fault α} (needs : st.missingTable? d ≠ none → (f d).toOption = none) :
    Acts failing (send st numbers d f) fun copy =>
      (Database.sent numbers (f d)).map fun a => (a, copy) where
  frame s := ⟨rfl, rfl, rfl⟩
  done s a copy _ given := by
    have result := s.connection.sendSent st numbers needs
    obtain ⟨a', found, same⟩ := Option.map_eq_some_iff.mp given
    cases same
    rw [found] at result
    cases sent : (s.connection.send st numbers d f).2 with
    | error fault => simp [sent, Except.toOption] at result
    | ok b =>
      rw [sent] at result
      cases result
      exact ⟨a, sent, rfl, rfl⟩
  refused s _ none := by
    have result := s.connection.sendSent st numbers needs
    rw [Option.map_eq_none_iff.mp none] at result
    cases sent : (s.connection.send st numbers d f).2 with
    | error fault => exact ⟨fault, sent⟩
    | ok b => simp [sent, Except.toOption] at result

theorem changesChange (failing : List Leg) (st : Statement) (numbers : List Int)
    {f : Database → Except Fault Database}
    (needs : ∀ d, st.missingTable? d ≠ none → (f d).toOption = none) :
    Changes failing (change st numbers f) fun d => Database.sent numbers (f d) where
  frame s := by
    have kept := (actsSend failing st numbers (needs s.working)).frame s
    simp only [change, Run.bind_apply, Run.get]
    rcases run : send st numbers s.working f s with ⟨t, trace, r⟩
    rw [run] at kept
    cases r with
    | error fault => exact kept
    | ok d => exact ⟨kept.committed, kept.failing, kept.failure⟩
  done s u d same given := by
    obtain ⟨later, sent, eq⟩ := Option.map_eq_some_iff.mp given
    cases eq
    unfold change
    rw [Run.endsBind, Run.endsGet, Run.endsBind]
    have sent' : (Database.sent numbers (f s.working)).map (fun a => (a, s.working)) =
        some (d, s.working) := by
      rw [show Database.sent numbers (f s.working) = some d from sent]
      rfl
    have run := (actsSend failing st numbers (needs s.working)).done s d s.working same sent'
    refine Run.endsMono run ?_
    intro _ t post
    obtain ⟨rfl, -⟩ := post
    exact Run.endsModify.mpr ⟨rfl, rfl⟩
  refused s same none := by
    have none' : (Database.sent numbers (f s.working)).map (fun a => (a, s.working)) = Option.none :=
      Option.map_eq_none_iff.mpr (Option.map_eq_none_iff.mp none)
    have refused := (actsSend failing st numbers (needs s.working)).refused s same none'
    obtain ⟨fault, result⟩ := refused
    refine ⟨fault, ?_⟩
    simp only [change, Run.bind_apply, Run.get]
    rcases run : send st numbers s.working f s with ⟨t, trace, r⟩
    rw [run] at result
    cases result
    rfl

theorem changesForM {failing : List Leg} {f : Link → Run Storage Unit}
    {step : Database → Link → Option Database}
    (each : ∀ l, Changes failing (f l) fun d => step d l) (links : List Link) :
    Changes failing (links.forM f) fun d => links.foldlM step d := by
  induction links with
  | nil => exact actsPure failing ()
  | cons l rest ih =>
    have both := actsBind (each l) fun _ => ih
    have same : (fun d => ((step d l).map fun later => ((), later)).bind fun r =>
        (rest.foldlM step r.2).map fun later => ((), later)) =
        fun d => ((l :: rest).foldlM step d).map fun later => ((), later) := by
      funext d
      rw [List.foldlM_cons]
      cases step d l <;> rfl
    rw [same] at both
    exact both

theorem changesLeg {failing : List Leg} (leg : Leg) {f : Int → List Link → Run Storage Unit}
    {parent : Int} {links : List Link} {p : Database → Option Database}
    (changes : Changes failing (f parent links) p) :
    Changes failing (runLeg leg f parent links) fun d =>
      if failing.contains leg then none else p d := by
  have logged : Acts failing (do
      f parent links
      debug Logger.linkTable (legLine leg links.length parent)) fun d =>
        (p d).map fun later => ((), later) := by
    have both := actsBind changes fun _ => actsLog failing
      { level := Level.debug, logger := Logger.linkTable, head := legLine leg links.length parent }
    have same : (fun d => ((p d).map fun later => ((), later)).bind fun r => some ((), r.2)) =
        fun d => (p d).map fun later => ((), later) := by
      funext d
      cases p d <;> rfl
    rw [same] at both
    exact both
  have run : ∀ s : Storage, runLeg leg f parent links s =
      (if s.failing.contains leg then Run.fail (.reported s.failure) else do
        f parent links
        debug Logger.linkTable (legLine leg links.length parent)) s := by
    intro s
    simp only [runLeg, guarded, Run.bind_apply, Run.get, List.nil_append]
  refine ⟨fun s => ?_, fun s u d same given => ?_, fun s same none => ?_⟩
  · rw [run]
    split
    · exact frameRefl s
    · exact logged.frame s
  · split at given
    · contradiction
    · rename_i free
      have ended := logged.done s u d same given
      rw [Run.Ends, run, same, if_neg free]
      exact ended
  · rw [run, same]
    split
    · exact ⟨_, rfl⟩
    · rename_i free
      dsimp only at none
      rw [if_neg free] at none
      exact logged.refused s same none

end Storage

end ModalNotes
