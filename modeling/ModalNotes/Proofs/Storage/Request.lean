import ModalNotes.Proofs.Storage.Persist

/-! Requests of the storage on their own. A request gives what its statement gives on the committed tables,
and leaves alone everything but the connection; no fault of it speaks of links and anchors. -/
namespace ModalNotes

/- The causes that say that links do not go together with their anchors or with their note. -/
def Fault.ofLinks : Fault → Bool
  | .anchorLinked _ | .anchorLost _ | .foreignRow _ _ | .unsavedNote | .unboundNote => true
  | _ => false

def Database.Refuses {α : Type} (f : Database → Except Fault α) : Prop :=
  ∀ d fault, f d = .error fault → fault.ofLinks = false

namespace Connection

theorem prepareFault {c c' : Connection} {st : Statement} {d : Database} {fault : Fault}
    (h : c.prepare st d = (c', .error fault)) : fault.ofLinks = false := by
  unfold prepare at h
  split at h
  · cases h
  · split at h <;> cases h
    rfl

theorem bindFault {c c' : Connection} {numbers : List Int} {fault : Fault}
    (h : c.bind numbers = (c', .error fault)) : fault.ofLinks = false := by
  induction numbers generalizing c with
  | nil => cases h
  | cons n rest ih =>
    unfold bind at h
    split at h
    · exact ih h
    · cases h
      cases c'.missed <;> rfl

theorem sendFault {α : Type} {c : Connection} {st : Statement} {numbers : List Int} {d : Database}
    {f : Database → Except Fault α} (refuses : Database.Refuses f) {fault : Fault}
    (h : (c.send st numbers d f).2 = .error fault) : fault.ofLinks = false := by
  unfold send at h
  split at h
  · rename_i failed
    cases h
    exact prepareFault failed
  · split at h
    · rename_i failed
      cases h
      exact bindFault failed
    · rw [finishResult] at h
      exact refuses d fault h

end Connection

namespace Storage

variable {α : Type}

theorem asRequestOption (request : Request) (r : Except Fault α) :
    (asRequest request r).toOption = r.toOption := by
  unfold asRequest
  split <;> rfl

theorem asRequestFault {request : Request} {r : Except Fault α}
    (h : ∀ fault, r = .error fault → fault.ofLinks = false) {fault : Fault}
    (failed : asRequest request r = .error fault) : fault.ofLinks = false := by
  unfold asRequest at failed
  split at failed
  · cases failed
    rfl
  · cases failed
    rfl
  · exact h fault failed

theorem querySent {s : Storage} {request : Request} {st : Statement} {numbers : List Int}
    {f : Database → Except Fault α}
    (needs : st.missingTable? s.committed ≠ none → (f s.committed).toOption = none) :
    (query request st numbers f).After s fun r t => Frame s t ∧
      r.toOption = Database.sent numbers (f s.committed) :=
  ⟨⟨rfl, rfl, rfl⟩, (asRequestOption request _).trans (s.connection.sendSent st numbers needs)⟩

theorem queryEnds {s : Storage} {request : Request} {st : Statement} {numbers : List Int}
    {f : Database → Except Fault α} {a : α}
    (needs : st.missingTable? s.committed ≠ none → (f s.committed).toOption = none)
    (given : Database.sent numbers (f s.committed) = some a) :
    (query request st numbers f).Ends s fun b t => b = a ∧ Frame s t := by
  obtain ⟨frame, sent⟩ : (query request st numbers f).After s fun r t => Frame s t ∧
      r.toOption = Database.sent numbers (f s.committed) := querySent needs
  rw [given] at sent
  cases result : (query request st numbers f s).result with
  | error fault =>
    rw [result] at sent
    contradiction
  | ok b =>
    rw [result] at sent
    cases sent
    exact ⟨a, result, rfl, frame⟩

theorem queryFault {s : Storage} {request : Request} {st : Statement} {numbers : List Int}
    {f : Database → Except Fault α} (refuses : Database.Refuses f) {fault : Fault}
    (failed : (query request st numbers f s).result = .error fault) : fault.ofLinks = false :=
  asRequestFault (fun _ failed => Connection.sendFault refuses failed) failed

theorem queryAfter {s : Storage} {request : Request} {st : Statement} {numbers : List Int}
    {f : Database → Except Fault α}
    (needs : st.missingTable? s.committed ≠ none → (f s.committed).toOption = none)
    (refuses : Database.Refuses f) :
    (query request st numbers f).After s fun r t => Frame s t ∧
      r.toOption = Database.sent numbers (f s.committed) ∧
      ∀ fault, r = .error fault → fault.ofLinks = false :=
  ⟨(querySent needs).1, (querySent needs).2, fun _ failed => queryFault refuses failed⟩

theorem refusesNotes {f : List NoteRow → Except Fault α}
    (h : ∀ notes fault, f notes = .error fault → fault.ofLinks = false) :
    Database.Refuses fun d => d.needNotes >>= f := by
  intro d fault failed
  dsimp only at failed
  cases notes : d.needNotes with
  | error fault' =>
    have missing : fault' = .tableMissing Database.notesTable := by
      unfold Database.needNotes at notes
      split at notes <;> cases notes
      rfl
    rw [notes] at failed
    cases failed
    exact missing ▸ rfl
  | ok rows =>
    rw [notes] at failed
    exact h rows fault failed

theorem refusesTitle (title : Text) : Database.Refuses (·.idOfTitle? title) :=
  refusesNotes fun _ _ failed => nomatch failed

theorem refusesAdd (title body : Text) (hasLinks : Bool) :
    Database.Refuses (·.addNote title body hasLinks) := by
  intro d
  refine refusesNotes ?_ d
  intro notes fault failed
  split at failed
  · cases failed
    rfl
  · dsimp only at failed
    split at failed <;> cases failed
    rfl

structure Created (s later : Storage) : Prop where
  failing : later.failing = s.failing
  failure : later.failure = s.failure
  committed : later.committed = s.committed ∨
    ∃ title id, s.committed.addNote title [] false = .ok (later.committed, id)

theorem createAfter (s : Storage) (title : Text) :
    (create title [] false).After s fun r t => t.failing = s.failing ∧ t.failure = s.failure ∧
      (∀ fault, r = .error fault → fault.ofLinks = false ∧ t.committed = s.committed) ∧
      ∀ id, r = .ok id → s.committed.addNote title [] false = .ok (t.committed, id) := by
  unfold create
  rw [Run.afterBind]
  refine Run.afterMono (queryAfter (f := (·.addNote title [] false))
    (fun missing => Database.notesNeeded (noteNeeds rfl missing) _) (refusesAdd title [] false)) ?_
  intro r t post
  obtain ⟨frame, sent, faults⟩ := post
  cases r with
  | error fault =>
    refine ⟨frame.failing, frame.failure, fun fault' failed => ?_, fun id done => nomatch done⟩
    cases failed
    exact ⟨faults fault rfl, frame.committed⟩
  | ok added =>
    obtain ⟨d, id⟩ := added
    refine ⟨frame.failing, frame.failure, Run.noFault, fun id' done => ?_⟩
    cases done
    cases added : s.committed.addNote title [] false with
    | error fault =>
      rw [added] at sent
      cases sent
    | ok r =>
      rw [added] at sent
      cases sent
      rfl

end Storage

end ModalNotes
