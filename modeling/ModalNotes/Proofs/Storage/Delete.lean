import ModalNotes.Proofs.Storage.Request
import ModalNotes.Proofs.Storage.Tables

/-! The deletion of a note. It takes out the note with its own rows, and the rows of all other notes that
lead to it; what else is in the tables stays. -/
namespace ModalNotes

namespace Database

structure Deletes (d later : Database) (id : Int) : Prop where
  notes : later.notes = some ((d.notes.getD []).filter (·.id != id))
  links : later.links = some ((d.links.getD []).filter fun r => r.parent != id && r.linked != id)

section
variable {d later : Database} {id : Int}

theorem Deletes.gone (deletes : Deletes d later id) : later.noteOf id = none := by
  rw [noteOf, deletes.notes, Option.getD_some, List.find?_eq_none]
  intro n member same
  have kept := (List.mem_filter.mp member).2
  rw [bne, same] at kept
  contradiction

theorem Deletes.others (deletes : Deletes d later id) {other : Int} (differs : other ≠ id) :
    later.noteOf other = d.noteOf other := by
  rw [noteOf, deletes.notes, Option.getD_some, List.find?_filter, noteOf]
  congr 1
  funext n
  by_cases same : n.id = other <;> simp [same, differs]

theorem Deletes.noRows (deletes : Deletes d later id) : later.rowsIn id = [] := by
  rw [rowsIn, deletes.links, Option.getD_some, LinkRow.ofNote, List.filter_eq_nil_iff]
  intro r member mine
  have kept := (List.mem_filter.mp member).2
  rw [bne, mine] at kept
  contradiction

theorem Deletes.rows (deletes : Deletes d later id) {other : Int} (differs : other ≠ id) :
    later.rowsIn other = (d.rowsIn other).filter (·.linked != id) := by
  rw [rowsIn, deletes.links, Option.getD_some, LinkRow.ofNote, rowsIn, LinkRow.ofNote,
    List.filter_filter, List.filter_filter]
  refine List.filter_congr fun r _ => ?_
  by_cases same : r.parent = other
  · simp [same, differs]
  · simp [beq_false_of_ne same]

theorem Deletes.rowsLess (deletes : Deletes d later id) (other : Int) :
    (later.rowsIn other).Sublist (d.rowsIn other) := by
  by_cases same : other = id
  · rw [same, deletes.noRows]
    exact List.nil_sublist _
  · rw [deletes.rows same]
    exact List.filter_sublist

theorem Deletes.rooted (deletes : Deletes d later id) (rooted : d.Rooted) : later.Rooted where
  notes := by
    rw [deletes.notes]
    rfl
  links := by
    rw [deletes.links]
    rfl
  parents r member := by
    rw [deletes.links, Option.getD_some] at member
    obtain ⟨inside, kept⟩ := List.mem_filter.mp member
    have differs : r.parent ≠ id := by
      simp only [Bool.and_eq_true, bne_iff_ne] at kept
      exact kept.1
    rw [deletes.others differs]
    exact rooted.parents r inside

theorem removedGives (rooted : d.Rooted) {middle : Database} {found : Bool}
    (rows : d.removeRowsOf id = .ok middle) (note : middle.removeNote id = .ok (later, found)) :
    found = (d.noteOf id).isSome ∧ d.Deletes later id := by
  obtain ⟨notes, haveNotes⟩ := Option.isSome_iff_exists.mp rooted.notes
  obtain ⟨links, haveLinks⟩ := Option.isSome_iff_exists.mp rooted.links
  simp only [removeRowsOf, needLinks, haveLinks, needNotes, haveNotes, bind, Except.bind,
    Except.ok.injEq] at rows
  rw [← rows] at note
  simp only [removeNote, needLinks, needNotes, bind, Except.bind, Except.ok.injEq] at note
  cases note
  refine ⟨?_, ?_, ?_⟩
  · rw [noteOf, haveNotes, Option.getD_some]
    exact Bool.eq_iff_iff.mpr (by simp)
  · rw [haveNotes]
    rfl
  · rw [haveLinks]
    rfl

end

end Database

namespace Storage

variable {α : Type}

theorem sendAfter {s : Storage} {st : Statement} {numbers : List Int} {d : Database}
    {f : Database → Except Fault α} (needs : st.missingTable? d ≠ none → (f d).toOption = none) :
    (send st numbers d f).After s fun r t => Frame s t ∧
      r.toOption = Database.sent numbers (f d) :=
  ⟨⟨rfl, rfl, rfl⟩, s.connection.sendSent st numbers needs⟩

theorem afterWithin {request : Request} {m : Run Storage α} {s : Storage}
    {Q : Except Fault α → Storage → Prop} :
    (within request m).After s Q ↔ m.After s fun r t => Q (asRequest request r) t := Iff.rfl

theorem asRequestError (request : Request) (fault : Fault) :
    ∃ fault', asRequest request (.error fault : Except Fault α) = .error fault' := by
  unfold asRequest
  split <;> exact ⟨_, rfl⟩

theorem bothNeeded {d : Database} {st : Statement} {f : List LinkRow → List NoteRow → Except Fault α}
    (missing : st.missingTable? d ≠ none) :
    (d.needLinks >>= fun links => d.needNotes >>= fun notes => f links notes).toOption = none := by
  rcases Database.missingOf missing with ⟨-, links⟩ | ⟨-, notes⟩
  · exact Database.needsBoth (.inl links)
  · exact Database.needsBoth (.inr notes)

theorem deleteAfter {s : Storage} (rooted : s.committed.Rooted) (id : Int) :
    (delete id).After s fun r t => t.failing = s.failing ∧ t.failure = s.failure ∧
      match r with
      | .ok found => found = (s.committed.noteOf id).isSome ∧ s.committed.Deletes t.committed id
      | .error _ => t.committed = s.committed := by
  unfold delete
  rw [afterWithin]
  refine Run.afterBindEnds (Run.endsGet.mpr ?_)
  rw [Run.afterBind]
  refine Run.afterMono (sendAfter (f := (·.removeRowsOf id)) (fun missing => bothNeeded missing)) ?_
  intro r t post
  obtain ⟨frame, sent⟩ := post
  cases r with
  | error fault =>
    obtain ⟨fault', told⟩ := asRequestError (α := Bool) (.delete id) fault
    dsimp only
    rw [told]
    exact ⟨frame.failing, frame.failure, frame.committed⟩
  | ok d =>
    dsimp only
    rw [Run.afterBind]
    refine Run.afterMono (sendAfter (f := (·.removeNote id)) (fun missing => bothNeeded missing)) ?_
    intro r u post
    obtain ⟨frame', sent'⟩ := post
    have frames := frame.trans frame'
    cases r with
    | error fault =>
      obtain ⟨fault', told⟩ := asRequestError (α := Bool) (.delete id) fault
      dsimp only
      rw [told]
      exact ⟨frames.failing, frames.failure, frames.committed⟩
    | ok gone =>
      exact ⟨frames.failing, frames.failure, Database.removedGives rooted
        (Database.sentSome sent.symm).2 (Database.sentSome sent'.symm).2⟩

end Storage

namespace Notebook

theorem deleteAfter {s : Storage} (rooted : s.committed.Rooted) (id : Int) :
    (delete id).After s fun r t => t.failing = s.failing ∧ t.failure = s.failure ∧
      match r with
      | .ok found => found = (s.committed.noteOf id).isSome ∧ s.committed.Deletes t.committed id
      | .error _ => t.committed = s.committed := by
  unfold delete
  rw [Run.afterBind]
  refine Run.afterMono (Storage.deleteAfter rooted id) ?_
  intro r t post
  cases r with
  | error fault => exact post
  | ok found => exact post

end Notebook

end ModalNotes
