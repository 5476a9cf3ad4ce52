import ModalNotes.Proofs.Link.Formed

/-! The course of a synchronisation. Each call to the backend and to the note leg is noted with its outcome,
and whatever the backend does, the calls follow one of a few courses. -/
namespace ModalNotes

namespace LinkDiff

def legs (d : LinkDiff) : List (Leg × List Link) :=
  [(.update, d.toUpdate), (.insert, d.toInsert), (.delete, d.toDelete)].filter (!·.2.isEmpty)

def failures (d : LinkDiff) (raised : Leg → Option Fault) : List (Leg × Fault) :=
  d.legs.flatMap fun leg => (raised leg.1).toList.map (leg.1, ·)

end LinkDiff

/-- What a synchronisation asks for; `raised` is how it went. -/
inductive Call
  | start
  | note (raised : Option Fault)
  | leg (leg : Leg) (parent : Int) (anchors : List Int) (raised : Option Fault)
  | commit (raised : Option Fault)
  | rollback
  | close

def Call.attempts : Call → Bool
  | note _ | leg _ _ _ _ | commit _ => true
  | start | rollback | close => false

structure Noted (ω : Type) where
  world : ω
  calls : List Call := []

namespace Noted

variable {ω α : Type}

def raised (r : Except Fault α) : Option Fault :=
  match r with
  | .ok _ => none
  | .error fault => some fault

def add (call : Call) (n : Noted ω) : Noted ω := { n with calls := n.calls ++ [call] }

def run (call : Option Fault → Call) (m : Run ω α) : Run (Noted ω) α := fun n =>
  let o := m n.world
  ⟨{ n with world := o.state }.add (call (raised o.result)), o.trace, o.result⟩

def leg (leg : Leg) (m : Int → List Link → Run ω Unit) (parent : Int) (links : List Link) :
    Run (Noted ω) Unit :=
  run (.leg leg parent (links.map Link.anchor)) (m parent links)

def backend (b : Backend ω) : Backend (Noted ω) where
  start n := { n with world := b.start n.world }.add .start
  update := leg .update b.update
  insert := leg .insert b.insert
  delete := leg .delete b.delete
  commit := run .commit b.commit
  rollback n := { n with world := b.rollback n.world }.add .rollback
  close n := { n with world := b.close n.world }.add .close

def noteLeg (m : Run (Ledger ω) Unit) : Run (Ledger (Noted ω)) Unit := fun l =>
  let o := m ⟨l.store, l.world.world⟩
  ⟨⟨o.state.store, { l.world with world := o.state.world }.add (.note (raised o.result))⟩, o.trace,
    o.result⟩

end Noted

namespace Ledger

variable {ω : Type}

def OnlyBinds (m : Run (Ledger ω) Unit) : Prop :=
  ∀ l, (m l).state.store = l.store ∨ ∃ parent, (m l).state.store = l.store.bindParent parent

inductive Wrote (s : LinkStore) : Bool → List Call → LinkStore → Prop
  | absent : Wrote s false [] s
  | kept : Wrote s true [.note none] s
  | bound (parent : Option Int) : Wrote s true [.note none] (s.bindParent parent)

theorem wroteAbsent {s t : LinkStore} {note : List Call} (wrote : Wrote s false note t) : t = s := by
  cases wrote
  rfl

theorem wroteSettles {s t : LinkStore} {given : Bool} {note : List Call} (formed : s.Formed)
    (wrote : Wrote s given note t) : t.settle s.classify = t.written := by
  cases wrote with
  | absent => exact LinkStore.settleWritten formed
  | kept => exact LinkStore.settleWritten formed
  | bound parent =>
    rw [LinkStore.settleBound]
    exact LinkStore.settleWritten (LinkStore.formedBind formed parent)

def attempts (d : LinkDiff) (parent : Int) (raised : Leg → Option Fault) : List Call :=
  d.legs.map fun leg => .leg leg.1 parent (leg.2.map Link.anchor) (raised leg.1)

inductive Within (s : LinkStore) : Bool → List Call → Except Fault Unit → LinkStore → Prop
  | noteFailed {t : LinkStore} (fault : Fault) (store : t = s ∨ ∃ parent, t = s.bindParent parent) :
      Within s true [.note (some fault), .rollback] (.error (.syncFailed [(.note, fault)])) t
  | unbound {note : List Call} {t : LinkStore} (wrote : Wrote s true note t) (orphan : t.parent = none) :
      Within s true (note ++ [.rollback]) (.error .unboundNote) t
  | legsFailed {given : Bool} {note : List Call} {t : LinkStore} {parent : Int}
      (wrote : Wrote s given note t) (bound : t.parent = some parent) (raised : Leg → Option Fault)
      (failed : s.classify.failures raised ≠ []) :
      Within s given (note ++ (attempts s.classify parent raised ++ [.rollback]))
        (.error (.syncFailed (s.classify.failures raised))) t
  | commitFailed {given : Bool} {note : List Call} {t : LinkStore} {parent : Int}
      (wrote : Wrote s given note t) (bound : t.parent = some parent) (raised : Leg → Option Fault)
      (written : s.classify.failures raised = []) (fault : Fault) :
      Within s given (note ++ (attempts s.classify parent raised ++ [.commit (some fault), .rollback]))
        (.error (.syncFailed [(.commit, fault)])) t
  | committed {given : Bool} {note : List Call} {t : LinkStore} {parent : Int}
      (wrote : Wrote s given note t) (bound : t.parent = some parent) (raised : Leg → Option Fault)
      (written : s.classify.failures raised = []) :
      Within s given (note ++ (attempts s.classify parent raised ++ [.commit none])) (.ok ()) t

inductive Course (s : LinkStore) : Bool → List Call → Except Fault SyncReport → LinkStore → Prop
  | idle (empty : s.classify.isEmpty = true) : Course s false [] (.ok {}) s.pruned
  | unsaved (work : s.classify.isEmpty = false) (orphan : s.parent = none) :
      Course s false [] (.error .unsavedNote) s
  | undone {given : Bool} {calls : List Call} {fault : Fault} {t : LinkStore}
      (work : given = true ∨ s.classify.isEmpty = false) (within : Within s given calls (.error fault) t) :
      Course s given (.start :: calls ++ [.close]) (.error fault) t
  | done {given : Bool} {calls : List Call} {t : LinkStore}
      (work : given = true ∨ s.classify.isEmpty = false) (within : Within s given calls (.ok ()) t) :
      Course s given (.start :: calls ++ [.close]) (.ok (report s)) t.written

/- One start and one close around everything, and one rollback before the close of what has failed. -/
def Balanced (calls : List Call) (r : Except Fault SyncReport) : Prop :=
  ∃ inner, calls = .start :: inner ++ (match r with | .ok _ => [] | .error _ => [.rollback]) ++ [.close] ∧
    inner.all Call.attempts = true

theorem onWorldRunAfter {call : Option Fault → Call} {m : Run ω Unit} {l : Ledger (Noted ω)}
    {Q : Except Fault Unit → Ledger (Noted ω) → Prop} :
    (onWorld (Noted.run call m)).After l Q ↔ m.After l.world.world fun r w =>
      Q r ⟨l.store, ⟨w, l.world.calls ++ [call (Noted.raised r)]⟩⟩ := Iff.rfl

def attempt (leg : Leg) (links : List Link) (parent : Int) (raised : Option Fault) : List Call :=
  if links.isEmpty then [] else [.leg leg parent (links.map Link.anchor) raised]

def failure (leg : Leg) (links : List Link) (raised : Option Fault) : List (Leg × Fault) :=
  if links.isEmpty then [] else raised.toList.map (leg, ·)

theorem attemptsParts (d : LinkDiff) (parent : Int) (raised : Leg → Option Fault) :
    attempts d parent raised = attempt .update d.toUpdate parent (raised .update) ++
      attempt .insert d.toInsert parent (raised .insert) ++
      attempt .delete d.toDelete parent (raised .delete) := by
  obtain ⟨updates, inserts, deletes⟩ := d
  cases updates <;> cases inserts <;> cases deletes <;> rfl

theorem failuresParts (d : LinkDiff) (raised : Leg → Option Fault) :
    d.failures raised = failure .update d.toUpdate (raised .update) ++
      failure .insert d.toInsert (raised .insert) ++ failure .delete d.toDelete (raised .delete) := by
  obtain ⟨updates, inserts, deletes⟩ := d
  cases updates <;> cases inserts <;> cases deletes <;> simp [LinkDiff.failures, LinkDiff.legs, failure]

theorem tryLegNoted (leg : Leg) (m : Int → List Link → Run ω Unit) (parent : Int) (links : List Link)
    (l : Ledger (Noted ω)) :
    (tryLeg leg links (Noted.leg leg m parent links)).Ends l fun failures t => t.store = l.store ∧
      ∃ raised, t.world.calls = l.world.calls ++ attempt leg links parent raised ∧
        failures = failure leg links raised := by
  unfold tryLeg
  cases links with
  | nil => simp [attempt, failure]
  | cons first rest =>
    simp only [List.isEmpty_cons, Bool.false_eq_true, if_false, Run.endsBind, Run.endsAttempt, Noted.leg,
      onWorldRunAfter]
    cases h : (m parent (first :: rest) l.world.world).result with
    | ok _ => simp [Run.After, h, Noted.raised, attempt, failure]
    | error fault =>
      simp only [Run.After, h, Run.endsBind, warn, Run.endsLog, Run.endsPure]
      exact ⟨trivial, some fault, rfl, rfl⟩

theorem tryCommitNoted (b : Backend ω) (l : Ledger (Noted ω)) :
    (tryCommit (Noted.backend b)).Ends l fun failures t => t.store = l.store ∧ ∃ raised,
      t.world.calls = l.world.calls ++ [.commit raised] ∧ failures = raised.toList.map (.commit, ·) := by
  simp only [tryCommit, Run.endsBind, Run.endsAttempt, Noted.backend, onWorldRunAfter]
  cases h : (b.commit l.world.world).result with
  | ok _ => simp [Run.After, h, Noted.raised]
  | error fault =>
    simp only [Run.After, h, Run.endsBind, warn, Run.endsLog, Run.endsPure]
    exact ⟨trivial, some fault, rfl, rfl⟩

theorem runLegsNoted (b : Backend ω) {s : LinkStore} {given : Bool} {note : List Call} {parent : Int}
    {l : Ledger (Noted ω)} (wrote : Wrote s given note l.store) (bound : l.store.parent = some parent) :
    (runLegs (Noted.backend b) parent s.classify).After l fun r t => ∃ calls,
      t.world.calls = l.world.calls ++ calls ∧ Within s given (note ++ calls) r t.store := by
  unfold runLegs
  refine Run.afterBindEnds (Run.endsMono (tryLegNoted .update b.update parent _ l) ?_)
  rintro _ t ⟨store, updating, calls, rfl⟩
  refine Run.afterBindEnds (Run.endsMono (tryLegNoted .insert b.insert parent _ t) ?_)
  rintro _ u ⟨store', inserting, calls', rfl⟩
  refine Run.afterBindEnds (Run.endsMono (tryLegNoted .delete b.delete parent _ u) ?_)
  rintro _ v ⟨store'', deleting, calls'', rfl⟩
  let raised : Leg → Option Fault
    | .update => updating
    | .insert => inserting
    | .delete => deleting
    | _ => none
  have same : v.store = l.store := store''.trans (store'.trans store)
  have written : v.world.calls = l.world.calls ++ attempts s.classify parent raised := by
    rw [calls'', calls', calls, attemptsParts]
    simp only [List.append_assoc, raised]
  have failures : failure .update s.classify.toUpdate updating ++
      failure .insert s.classify.toInsert inserting ++ failure .delete s.classify.toDelete deleting =
        s.classify.failures raised := (failuresParts s.classify raised).symm
  rw [← same] at wrote bound
  dsimp only
  rw [failures]
  cases all : s.classify.failures raised with
  | nil =>
    refine Run.afterBindEnds (Run.endsMono (tryCommitNoted b v) ?_)
    rintro _ w ⟨kept, committing, calls, rfl⟩
    rw [written, List.append_assoc] at calls
    cases committing with
    | none => exact ⟨_, calls, kept ▸ .committed wrote bound raised all⟩
    | some fault =>
      rw [← kept] at wrote bound
      have ended := Within.commitFailed wrote bound raised all fault
      refine ⟨_, ?_, ended⟩
      change w.world.calls ++ [.rollback] = _
      simp [calls]
  | cons first rest =>
    have ended := Within.legsFailed wrote bound raised (by simp [all])
    rw [all] at ended
    refine ⟨_, ?_, ended⟩
    change v.world.calls ++ [.rollback] = _
    simp [written]

theorem runNoteLegNoted (b : Backend ω) {leg : Option (Run (Ledger ω) Unit)}
    (binds : ∀ m ∈ leg, OnlyBinds m) (l : Ledger (Noted ω)) :
    (runNoteLeg (Noted.backend b) (leg.map Noted.noteLeg)).After l fun r t =>
      match r with
      | .ok _ => ∃ note, t.world.calls = l.world.calls ++ note ∧ Wrote l.store leg.isSome note t.store
      | .error _ => ∃ calls, t.world.calls = l.world.calls ++ calls ∧
          Within l.store leg.isSome calls r t.store := by
  cases leg with
  | none => exact ⟨[], (List.append_nil _).symm, .absent⟩
  | some m =>
    unfold runNoteLeg
    refine Run.afterBindEnds (Run.endsAttempt.mpr ?_)
    have store := binds m rfl ⟨l.store, l.world.world⟩
    cases h : (m ⟨l.store, l.world.world⟩).result with
    | ok _ =>
      simp only [Run.After, Noted.noteLeg, h]
      refine ⟨[.note none], rfl, ?_⟩
      change Wrote l.store true _ (m ⟨l.store, l.world.world⟩).state.store
      rcases store with same | ⟨parent, same⟩ <;> rw [same]
      · exact .kept
      · exact .bound parent
    | error fault =>
      simp only [Run.After, Noted.noteLeg, h]
      refine ⟨[.note (some fault), .rollback], ?_, .noteFailed fault store⟩
      change l.world.calls ++ [.note (some fault)] ++ [.rollback] = _
      simp

theorem transactNoted (b : Backend ω) {leg : Option (Run (Ledger ω) Unit)}
    (binds : ∀ m ∈ leg, OnlyBinds m) {l : Ledger (Noted ω)}
    (parent : leg = none → l.store.parent ≠ none) :
    (transact (Noted.backend b) (leg.map Noted.noteLeg) l.store.classify).After l fun r t =>
      ∃ calls, t.world.calls = l.world.calls ++ calls ∧
        Within l.store leg.isSome calls r t.store := by
  unfold transact
  rw [Run.afterBind]
  refine Run.afterMono (runNoteLegNoted b binds l) ?_
  intro r t post
  cases r with
  | error fault => exact post
  | ok _ =>
    obtain ⟨note, calls, wrote⟩ := post
    refine Run.afterBindEnds (Run.endsGet.mpr ?_)
    cases bound : t.store.parent with
    | none =>
      refine ⟨note ++ [.rollback], ?_, ?_⟩
      · change t.world.calls ++ [.rollback] = _
        simp [calls]
      · cases leg with
        | none =>
          rw [wroteAbsent wrote] at bound
          exact absurd bound (parent rfl)
        | some m => exact .unbound wrote bound
    | some id =>
      dsimp only
      refine Run.afterMono (runLegsNoted b wrote bound) ?_
      rintro r u ⟨more, calls', within⟩
      exact ⟨note ++ more, by simp [calls', calls], within⟩

theorem withinDone {s t : LinkStore} {given : Bool} {calls : List Call} (formed : s.Formed)
    (within : Within s given calls (.ok ()) t) : t.settle s.classify = t.written := by
  cases within with
  | committed wrote => exact wroteSettles formed wrote

theorem syncNoted (b : Backend ω) {leg : Option (Run (Ledger ω) Unit)}
    (binds : ∀ m ∈ leg, OnlyBinds m) {s : LinkStore} (formed : s.Formed) (w : ω) :
    (sync (Noted.backend b) (leg.map Noted.noteLeg)).After ⟨s, { world := w }⟩ fun r t =>
      Course s leg.isSome t.world.calls r t.store := by
  unfold sync
  refine Run.afterBindEnds (Run.endsGet.mpr ?_)
  dsimp only
  split
  · rename_i idle
    obtain ⟨empty, rfl⟩ : s.classify.isEmpty = true ∧ leg = none := by simpa using idle
    have course := Course.idle empty
    rw [← LinkStore.settleIdle empty] at course
    exact course
  · rename_i work
    have work' : leg.isSome = true ∨ s.classify.isEmpty = false := by
      cases leg <;> simp at work ⊢
      exact work
    split
    · rename_i orphan
      obtain ⟨rfl, parent⟩ : leg = none ∧ s.parent = none := by simpa using orphan
      exact .unsaved (by simpa using work') parent
    · rename_i known
      have parent : leg = none → s.parent ≠ none := by
        rintro rfl
        simpa using known
      rw [Run.afterBind, Run.afterSpannedWith, afterInTransaction]
      refine Run.afterMono (transactNoted b binds (l := ⟨s, { world := b.start w, calls := [.start] }⟩)
        parent) ?_
      rintro r t ⟨calls, same, within⟩
      cases r with
      | error fault =>
        change Course s leg.isSome (t.world.calls ++ [.close]) (.error fault) t.store
        rw [same]
        exact .undone work' within
      | ok _ =>
        change Course s leg.isSome (t.world.calls ++ [.close]) (.ok (report s))
          (t.store.settle s.classify)
        rw [same, withinDone formed within]
        exact .done work' within

theorem wroteAttempts {s t : LinkStore} {given : Bool} {note : List Call}
    (wrote : Wrote s given note t) : note.all Call.attempts = true := by
  cases wrote <;> rfl

theorem attemptsAll (d : LinkDiff) (parent : Int) (raised : Leg → Option Fault) :
    (attempts d parent raised).all Call.attempts = true := by
  simp [attempts, Call.attempts]

theorem withinBalanced {s t : LinkStore} {given : Bool} {calls : List Call} {r : Except Fault Unit}
    (within : Within s given calls r t) :
    Balanced (.start :: calls ++ [.close]) (r.map fun _ => report s) := by
  cases within with
  | noteFailed fault store => exact ⟨[.note (some fault)], by simp [Except.map], rfl⟩
  | unbound wrote orphan => exact ⟨_, by simp [Except.map], wroteAttempts wrote⟩
  | @legsFailed _ note _ parent wrote bound raised failed =>
    exact ⟨note ++ attempts s.classify parent raised, by simp [Except.map],
      by simp only [List.all_append, wroteAttempts wrote, attemptsAll, Bool.and_self]⟩
  | @commitFailed _ note _ parent wrote bound raised written fault =>
    exact ⟨note ++ (attempts s.classify parent raised ++ [.commit (some fault)]), by simp [Except.map],
      by simp only [List.all_append, wroteAttempts wrote, attemptsAll]; rfl⟩
  | @committed _ note _ parent wrote bound raised written =>
    exact ⟨note ++ (attempts s.classify parent raised ++ [.commit none]), by simp [Except.map],
      by simp only [List.all_append, wroteAttempts wrote, attemptsAll]; rfl⟩

theorem courseBalanced {s t : LinkStore} {given : Bool} {calls : List Call}
    {r : Except Fault SyncReport} (course : Course s given calls r t) :
    calls = [] ∨ Balanced calls r := by
  cases course with
  | idle => exact .inl rfl
  | unsaved => exact .inl rfl
  | undone work within => exact .inr (withinBalanced within)
  | done work within => exact .inr (withinBalanced within)

/- Whatever raises, a synchronisation follows a course, and only a commit settles the store. -/
theorem syncCourses (b : Backend ω) {leg : Option (Run (Ledger ω) Unit)}
    (binds : ∀ m ∈ leg, OnlyBinds m) {s : LinkStore} (formed : s.Formed) (w : ω) :
    s.classify.Covers s ∧
      (sync (Noted.backend b) (leg.map Noted.noteLeg)).After ⟨s, { world := w }⟩ fun r t =>
        Course s leg.isSome t.world.calls r t.store ∧
          (t.world.calls = [] ∨ Balanced t.world.calls r) :=
  ⟨LinkStore.classifyCovers formed.distinct,
    Run.afterMono (syncNoted b binds formed w) fun _ _ course => ⟨course, courseBalanced course⟩⟩

def threeKinds : LinkStore where
  links := ⟨[
    (1, ⟨none, 1, 10, 0, 0, 2, true, true, false, 0⟩),
    (2, ⟨none, 2, 10, 0, 3, 5, false, false, false, 1⟩),
    (3, ⟨none, 3, 10, 1, 0, 2, true, false, true, 2⟩)]⟩
  nextSerial := 3

def exploded : Fault := .reported "update exploded".toList

def brokenUpdate : Backend Unit where
  start := id
  update _ _ := Run.fail exploded
  insert _ _ := pure ()
  delete _ _ := pure ()
  commit := pure ()
  rollback := id
  close := id

def bindsFive : Run (Ledger Unit) Unit := onStore (Run.modify (·.bindParent (some 5)))

theorem brokenUpdateCourse :
    ((∀ m ∈ some bindsFive, OnlyBinds m) ∧ threeKinds.Formed) ∧
      (threeKinds.classify.Covers threeKinds ∧
        (sync (Noted.backend brokenUpdate) (some (Noted.noteLeg bindsFive))).After
          ⟨threeKinds, { world := () }⟩ fun r t =>
            Course threeKinds true t.world.calls r t.store ∧
              (t.world.calls = [] ∨ Balanced t.world.calls r)) ∧
      (sync (Noted.backend brokenUpdate) (some (Noted.noteLeg bindsFive))
        ⟨threeKinds, { world := () }⟩).state.world.calls =
          [.start, .note none, .leg .update 5 [1] (some exploded), .leg .insert 5 [2] none,
            .leg .delete 5 [3] none, .rollback, .close] := by
  have binds : ∀ m ∈ some bindsFive, OnlyBinds m := by
    simp only [Option.mem_def, Option.some.injEq, forall_eq']
    exact fun l => .inr ⟨some 5, rfl⟩
  have formed : threeKinds.Formed := by
    constructor
    · intro k l member
      simp [threeKinds] at member
      rcases member with ⟨rfl, rfl⟩ | ⟨rfl, rfl⟩ | ⟨rfl, rfl⟩ <;> rfl
    · decide
    · decide
    · decide
  exact ⟨⟨binds, formed⟩, syncCourses brokenUpdate binds formed (), rfl⟩

end Ledger

end ModalNotes
