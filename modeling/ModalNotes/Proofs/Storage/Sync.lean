import ModalNotes.Proofs.Storage.Persist

/-! The transaction of a save against the function it carries out. -/
namespace ModalNotes.Ledger

open Storage

def Agrees (o : Option Database) (failures : List (Leg × Fault)) (w : Storage) : Prop :=
  match o with
  | some d => failures = [] ∧ w.working = d
  | none => failures ≠ []

theorem agreesBind {o : Option Database} {p : Database → Option Database}
    {first second : List (Leg × Fault)} {w v : Storage} (head : Agrees o first w)
    (tail : Agrees (p w.working) second v) : Agrees (o.bind p) (first ++ second) v := by
  cases o with
  | none => exact fun none => head (List.append_eq_nil_iff.mp none).1
  | some d =>
    obtain ⟨rfl, rfl⟩ := head
    exact tail

theorem tryLegEnds {failing : List Leg} {leg : Leg} {links : List Link} {m : Run Storage Unit}
    {p : Database → Option Database}
    (changes : Changes failing m fun d => if failing.contains leg then none else p d)
    {l : Ledger Storage} (same : l.world.failing = failing) :
    (tryLeg leg links m).Ends l fun failures t => t.store = l.store ∧ Frame l.world t.world ∧
      Agrees (Database.legOn failing leg links p l.world.working) failures t.world := by
  unfold tryLeg Database.legOn
  split
  · exact Run.endsPure.mpr ⟨rfl, frameRefl l.world, rfl, rfl⟩
  · rw [Run.endsBind, Run.endsAttempt]
    have frame := changes.frame l.world
    cases act : (if failing.contains leg then none else p l.world.working) with
    | some d =>
      obtain ⟨done, result, -, working⟩ := changes.done l.world () d same (by dsimp only; rw [act]; rfl)
      simp only [Run.After, onWorld, Run.on, result]
      exact Run.endsPure.mpr ⟨rfl, frame, rfl, working⟩
    | none =>
      obtain ⟨fault, result⟩ := changes.refused l.world same (by dsimp only; rw [act]; rfl)
      simp only [Run.After, onWorld, Run.on, result]
      rw [Run.endsBind, warn, Run.endsLog, Run.endsPure]
      exact ⟨rfl, frame, by simp [Agrees]⟩

theorem commitEnds {o : Option Database} {failures : List (Leg × Fault)} {l : Ledger Storage}
    (agrees : Agrees o failures l.world) :
    (if failures.isEmpty then tryCommit backend else pure failures).Ends l fun last t =>
      t.store = l.store ∧ t.world.failing = l.world.failing ∧ t.world.failure = l.world.failure ∧
        match o.bind fun d => if l.world.failing.contains .commit then none else some d with
        | some d => last = [] ∧ t.world.committed = d
        | none => last ≠ [] ∧ t.world.committed = l.world.committed := by
  cases o with
  | none =>
    have some' : failures ≠ [] := agrees
    rw [if_neg (by simpa using some')]
    exact Run.endsPure.mpr ⟨rfl, rfl, rfl, some', rfl⟩
  | some d =>
    obtain ⟨rfl, working⟩ := agrees
    simp only [List.isEmpty_nil, if_true, Option.bind_some]
    unfold tryCommit
    rw [Run.endsBind, Run.endsAttempt]
    have run : backend.commit l.world = (if l.world.failing.contains .commit
        then Run.fail (.reported l.world.failure) else Run.modify keep) l.world := by
      simp only [backend, guarded, Run.bind_apply, Run.get, List.nil_append]
    cases fails : l.world.failing.contains .commit with
    | true =>
      rw [fails, if_pos rfl] at run
      simp only [Run.After, onWorld, Run.on, run, Run.fail, if_true]
      rw [Run.endsBind, warn, Run.endsLog, Run.endsPure]
      exact ⟨rfl, rfl, rfl, by simp, rfl⟩
    | false =>
      rw [fails, if_neg Bool.false_ne_true] at run
      simp only [Run.After, onWorld, Run.on, run, Run.modify, Bool.false_eq_true, if_false]
      exact Run.endsPure.mpr ⟨rfl, rfl, rfl, rfl, working⟩

def Settles {α : Type} (o : Option α) (l : Ledger Storage) (done : α → Ledger Storage → Prop)
    (r : Except Fault Unit) (t : Ledger Storage) : Prop :=
  match o with
  | some a => r = .ok () ∧ done a t
  | none => (∃ failures, r = .error (.syncFailed failures)) ∧
      t.world.committed = l.world.committed

theorem runLegsAfter (parent : Int) (d : LinkDiff) (l : Ledger Storage) :
    (runLegs backend parent d).After l fun r t => t.store = l.store ∧
      t.world.failing = l.world.failing ∧ t.world.failure = l.world.failure ∧
      Settles (Database.persistLinks l.world.failing parent d l.world.working) l
        (fun committed t => t.world.committed = committed) r t := by
  unfold runLegs
  refine Run.afterBindEnds (Run.endsMono (tryLegEnds (changesUpdate l.world.failing parent _) rfl) ?_)
  intro updates t post
  obtain ⟨store, frame, agrees⟩ := post
  refine Run.afterBindEnds (Run.endsMono
    (tryLegEnds (changesInsert l.world.failing parent _) frame.failing) ?_)
  intro inserts u post
  obtain ⟨store', frame', agrees'⟩ := post
  refine Run.afterBindEnds (Run.endsMono
    (tryLegEnds (changesDelete l.world.failing parent _) (frame'.failing.trans frame.failing)) ?_)
  intro deletes v post
  obtain ⟨store'', frame'', agrees''⟩ := post
  have all := agreesBind (agreesBind agrees agrees') agrees''
  rw [Option.bind_assoc] at all
  have kept := (frame.trans frame').trans frame''
  have stores := store''.trans (store'.trans store)
  dsimp only
  have commit := commitEnds all
  rw [kept.failing, kept.failure, kept.committed] at commit
  have settled : ∀ failures w, w.store = v.store ∧ w.world.failing = l.world.failing ∧
      w.world.failure = l.world.failure ∧
      (match Database.persistLinks l.world.failing parent d l.world.working with
        | some d => failures = [] ∧ w.world.committed = d
        | none => failures ≠ [] ∧ w.world.committed = l.world.committed) →
      (if failures.isEmpty then pure () else abort backend (.syncFailed failures) :
        Run (Ledger Storage) Unit).After w fun r t => t.store = l.store ∧
        t.world.failing = l.world.failing ∧ t.world.failure = l.world.failure ∧
        Settles (Database.persistLinks l.world.failing parent d l.world.working) l
          (fun committed t => t.world.committed = committed) r t := by
    intro failures w post
    obtain ⟨same, failing, failure, outcome⟩ := post
    cases persisted : Database.persistLinks l.world.failing parent d l.world.working with
    | some db =>
      rw [persisted] at outcome
      obtain ⟨rfl, committed⟩ := outcome
      exact ⟨same.trans stores, failing, failure, rfl, committed⟩
    | none =>
      rw [persisted] at outcome
      obtain ⟨some', committed⟩ := outcome
      rw [if_neg (by simpa using some')]
      exact ⟨same.trans stores, failing, failure, ⟨failures, rfl⟩, committed⟩
  split
  · rename_i empty
    rw [if_pos empty] at commit
    exact Run.afterBindEnds (Run.endsMono commit settled)
  · rename_i some'
    rw [if_neg some', Run.endsPure] at commit
    exact settled _ _ commit

def bound (s : LinkStore) (id : Int) : LinkStore :=
  if s.parent.isNone then s.bindParent (some id) else s

theorem boundParent {s : LinkStore} {id : Int} (same : ∀ n, s.parent = some n → n = id) :
    (bound s id).parent = some id := by
  unfold bound
  cases parent : s.parent with
  | none => rfl
  | some n => simpa [parent] using same n parent

theorem persistNoteId {id n : Int} {title body : Text} {hasLinks : Bool} {d later : Database}
    (h : Database.persistNote (some n) title body hasLinks d = some (id, later)) : n = id := by
  obtain ⟨found, -, rest⟩ := Option.bind_eq_some_iff.mp h
  cases found with
  | none => contradiction
  | some note =>
    obtain ⟨d', -, same⟩ := Option.map_eq_some_iff.mp rest
    cases same
    rfl

theorem noteLegAfter (title body : Text) (hasLinks : Bool) (l : Ledger Storage) :
    (Notebook.noteLeg title body hasLinks).After l fun r t => Frame l.world t.world ∧
      match Database.persistNote l.store.parent title body hasLinks l.world.working with
      | some (id, d) => r = .ok () ∧ t.store = bound l.store id ∧ t.world.working = d
      | none => (∃ fault, r = .error fault) ∧ t.store = l.store := by
  have acts := actsWrite l.world.failing l.store.parent title body hasLinks
  have frame := acts.frame l.world
  unfold Notebook.noteLeg
  refine Run.afterBindEnds (Run.endsGet.mpr ?_)
  rw [Run.afterBind]
  cases written : Database.persistNote l.store.parent title body hasLinks l.world.working with
  | none =>
    obtain ⟨fault, result⟩ := acts.refused l.world rfl written
    simp only [Run.After, onWorld, Run.on, result]
    exact ⟨frame, ⟨fault, rfl⟩, trivial⟩
  | some r =>
    obtain ⟨id, d⟩ := r
    obtain ⟨id', result, rfl, working⟩ := acts.done l.world id d rfl written
    simp only [Run.After, onWorld, Run.on, result]
    unfold bound
    split
    · exact ⟨frame, rfl, rfl, working⟩
    · exact ⟨frame, rfl, rfl, working⟩

def Unbound (s t : LinkStore) : Prop := t = s ∨ s.parent = none ∧ ∃ id, t = s.bindParent (some id)

theorem unboundBound (s : LinkStore) (id : Int) : Unbound s (bound s id) := by
  unfold bound
  cases parent : s.parent with
  | none => exact .inr ⟨parent, id, rfl⟩
  | some n => exact .inl rfl

theorem runNoteLegAfter (title body : Text) (hasLinks : Bool) (l : Ledger Storage) :
    (runNoteLeg backend (some (Notebook.noteLeg title body hasLinks))).After l fun r t =>
      Frame l.world t.world ∧
      match Database.persistNote l.store.parent title body hasLinks l.world.working with
      | some (id, d) => r = .ok () ∧ t.store = bound l.store id ∧ t.world.working = d
      | none => (∃ failures, r = .error (.syncFailed failures)) ∧ t.store = l.store := by
  unfold runNoteLeg
  refine Run.afterBindEnds (Run.endsAttempt.mpr (Run.afterMono (noteLegAfter title body hasLinks l) ?_))
  intro r t post
  obtain ⟨frame, outcome⟩ := post
  cases written : Database.persistNote l.store.parent title body hasLinks l.world.working with
  | none =>
    rw [written] at outcome
    obtain ⟨⟨fault, rfl⟩, store⟩ := outcome
    exact ⟨⟨frame.committed, frame.failing, frame.failure⟩, ⟨_, rfl⟩, store⟩
  | some saved =>
    obtain ⟨id, d⟩ := saved
    rw [written] at outcome
    obtain ⟨rfl, store, working⟩ := outcome
    exact ⟨frame, rfl, store, working⟩

theorem transactAfter (title body : Text) (hasLinks : Bool) (d : LinkDiff) (l : Ledger Storage) :
    (transact backend (some (Notebook.noteLeg title body hasLinks)) d).After l fun r t =>
      Unbound l.store t.store ∧ t.world.failing = l.world.failing ∧
      t.world.failure = l.world.failure ∧
      Settles ((Database.persistNote l.store.parent title body hasLinks l.world.working).bind
          fun r => (Database.persistLinks l.world.failing r.1 d r.2).map fun db => (r.1, db)) l
        (fun saved t => t.store = bound l.store saved.1 ∧ t.world.committed = saved.2) r t := by
  unfold transact
  rw [Run.afterBind]
  refine Run.afterMono (runNoteLegAfter title body hasLinks l) ?_
  intro r t post
  obtain ⟨frame, outcome⟩ := post
  cases written : Database.persistNote l.store.parent title body hasLinks l.world.working with
  | none =>
    rw [written] at outcome
    obtain ⟨⟨failures, rfl⟩, store⟩ := outcome
    exact ⟨.inl store, frame.failing, frame.failure, ⟨failures, rfl⟩, frame.committed⟩
  | some saved =>
    obtain ⟨id, db⟩ := saved
    rw [written] at outcome
    obtain ⟨rfl, store, working⟩ := outcome
    have parent : t.store.parent = some id := by
      rw [store]
      refine boundParent fun n same => ?_
      rw [same] at written
      exact persistNoteId written
    dsimp only
    refine Run.afterBindEnds (Run.endsGet.mpr ?_)
    rw [parent]
    refine Run.afterMono (runLegsAfter id d t) ?_
    intro r u post
    obtain ⟨same, failing, failure, settles⟩ := post
    rw [frame.failing, working] at settles
    refine ⟨(same.trans store) ▸ unboundBound l.store id, failing.trans frame.failing,
      failure.trans frame.failure, ?_⟩
    simp only [Option.bind_some]
    cases persisted : Database.persistLinks l.world.failing id d db with
    | none =>
      rw [persisted] at settles
      obtain ⟨failed, committed⟩ := settles
      exact ⟨failed, committed.trans frame.committed⟩
    | some db' =>
      rw [persisted] at settles
      obtain ⟨ok, committed⟩ := settles
      exact ⟨ok, same.trans store, committed⟩

theorem afterInTransaction {ω α : Type} {b : Backend ω} {m : Run (Ledger ω) α} {l : Ledger ω}
    {Q : Except Fault α → Ledger ω → Prop} :
    (inTransaction b m).After l Q ↔ m.After { l with world := b.start l.world } fun r t =>
      Q r { t with world := b.close t.world } := Iff.rfl

def Saved (l : Ledger Storage) (id : Int) (d : Database) (t : Ledger Storage) : Prop :=
  t.store = (bound l.store id).settle l.store.classify ∧ t.world.committed = d

def report (s : LinkStore) : SyncReport :=
  ⟨s.classify.toUpdate.length, s.classify.toInsert.length, s.classify.toDelete.length⟩

/- The whole synchronisation against `persist`: with a commit the store is settled, without one it may be
left bound to an id that no note has. -/
theorem syncAfter (title body : Text) (hasLinks : Bool) (l : Ledger Storage) :
    (sync backend (some (Notebook.noteLeg title body hasLinks))).After l fun r t =>
      t.world.failing = l.world.failing ∧ t.world.failure = l.world.failure ∧
      match Database.persist l.world.failing l.store title body hasLinks l.world.committed with
      | some (id, d) => r = .ok (report l.store) ∧ Saved l id d t
      | none => (∃ failures, r = .error (.syncFailed failures)) ∧ Unbound l.store t.store ∧
          t.world.committed = l.world.committed := by
  unfold sync
  refine Run.afterBindEnds (Run.endsGet.mpr ?_)
  simp only [Option.isNone_some, Bool.and_false, Bool.false_and, Bool.false_eq_true, if_false]
  rw [Run.afterBind, Run.afterSpannedWith, afterInTransaction]
  have run := transactAfter title body hasLinks l.store.classify { l with world := begin l.world }
  refine Run.afterMono run ?_
  intro r t post
  obtain ⟨unbound, failing, failure, settles⟩ := post
  change Settles (Database.persist l.world.failing l.store title body hasLinks l.world.committed)
    _ _ r t at settles
  cases persisted : Database.persist l.world.failing l.store title body hasLinks
      l.world.committed with
  | none =>
    rw [persisted] at settles
    obtain ⟨⟨failures, rfl⟩, committed⟩ := settles
    exact ⟨failing, failure, ⟨failures, rfl⟩, unbound, committed⟩
  | some saved =>
    obtain ⟨id, d⟩ := saved
    rw [persisted] at settles
    obtain ⟨rfl, store, committed⟩ := settles
    exact ⟨failing, failure, rfl, congrArg (LinkStore.settle · l.store.classify) store, committed⟩

end ModalNotes.Ledger
