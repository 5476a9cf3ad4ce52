import ModalNotes.Notebook
import ModalNotes.Proofs.Storage.Acts

/-! A save as one function on databases: the note, the three legs and the commit, or nothing at all. The
transaction commits what this function gives, and where it gives nothing leaves the tables alone. -/
namespace ModalNotes

namespace Database

section
variable {st : Statement} {d : Database}

theorem notesNeeded (notes : d.notes = none) {α : Type} (f : List NoteRow → Except Fault α) :
    (d.needNotes >>= f).toOption = none := by
  simp only [needNotes, notes]
  rfl

theorem linksNeeded (links : d.links = none) {α : Type} (f : List LinkRow → Except Fault α) :
    (d.needLinks >>= f).toOption = none := by
  simp only [needLinks, links]
  rfl

theorem missingOf (missing : st.missingTable? d ≠ none) :
    st.needsLinks = true ∧ d.links = none ∨ st.needsNotes = true ∧ d.notes = none := by
  unfold Statement.missingTable? at missing
  split at missing
  · rename_i without
    simp only [Bool.and_eq_true, Option.isNone_iff_eq_none] at without
    exact .inl without
  · split at missing
    · rename_i without
      simp only [Bool.and_eq_true, Option.isNone_iff_eq_none] at without
      exact .inr without
    · contradiction

theorem needsBoth {α : Type} {f : List LinkRow → List NoteRow → Except Fault α}
    (missing : d.links = none ∨ d.notes = none) :
    (d.needLinks >>= fun links => d.needNotes >>= fun notes => f links notes).toOption = none := by
  cases links : d.links with
  | none => exact linksNeeded links _
  | some rows =>
    rcases missing with none | none
    · rw [links] at none
      contradiction
    · have rest := notesNeeded none (f rows)
      have found : d.needLinks = .ok rows := by simp only [needLinks, links]
      rw [found]
      exact rest

end

def updated (parent : Int) (d : Database) (l : Link) : Option Database :=
  sent [l.row, l.startCol, l.endCol, parent, l.linked, l.anchor] (d.updateRow parent l)

def inserted (parent : Int) (d : Database) (l : Link) : Option Database :=
  sent [l.anchor, l.row, l.startCol, l.endCol, parent, l.linked] (d.insertRow parent l)

def removed (parent : Int) (links : List Link) (d : Database) : Option Database :=
  sent (parent :: links.map Link.anchor) (d.deleteRows parent (links.map Link.anchor))

def legOn (failing : List Leg) (leg : Leg) (links : List Link) (p : Database → Option Database)
    (d : Database) : Option Database :=
  if links.isEmpty then some d else if failing.contains leg then none else p d

def persistLegs (failing : List Leg) (parent : Int) (diff : LinkDiff) (d : Database) :
    Option Database :=
  (legOn failing .update diff.toUpdate (fun d => diff.toUpdate.foldlM (updated parent) d) d).bind
    fun d => (legOn failing .insert diff.toInsert
      (fun d => diff.toInsert.foldlM (inserted parent) d) d).bind
        fun d => legOn failing .delete diff.toDelete (removed parent diff.toDelete) d

def persistLinks (failing : List Leg) (parent : Int) (diff : LinkDiff) (d : Database) :
    Option Database :=
  (persistLegs failing parent diff d).bind fun d => if failing.contains .commit then none else some d

def persistNote (id : Option Int) (title body : Text) (hasLinks : Bool) (d : Database) :
    Option (Int × Database) :=
  match id with
  | none => (sent [] (d.addNote title body hasLinks)).map fun r => (r.2, r.1)
  | some id => (sent [id] (d.note? id)).bind fun
    | none => none
    | some _ => (d.setNote id title body hasLinks).toOption.map fun d => (id, d)

def persist (failing : List Leg) (links : LinkStore) (title body : Text) (hasLinks : Bool)
    (d : Database) : Option (Int × Database) :=
  (persistNote links.parent title body hasLinks d).bind fun r =>
    (persistLinks failing r.1 links.classify r.2).map fun d => (r.1, d)

end Database

namespace Storage

open Database

theorem changesUpdate (failing : List Leg) (parent : Int) (links : List Link) :
    Changes failing (backend.update parent links) fun d =>
      if failing.contains .update then none else links.foldlM (updated parent) d := by
  have row : ∀ l, Changes failing (updateRow parent l) fun d => updated parent d l := by
    refine fun l => changesChange failing .updateRow _ fun d missing => ?_
    rcases missingOf missing with ⟨-, links⟩ | ⟨needs, -⟩
    · exact linksNeeded links _
    · contradiction
  exact changesLeg .update (f := fun parent links => links.forM (updateRow parent))
    (changesForM row links)

theorem changesInsert (failing : List Leg) (parent : Int) (links : List Link) :
    Changes failing (backend.insert parent links) fun d =>
      if failing.contains .insert then none else links.foldlM (inserted parent) d := by
  have row : ∀ l, Changes failing (insertRow parent l) fun d => inserted parent d l := by
    refine fun l => changesChange failing .insertRow _ fun d missing => ?_
    rcases missingOf missing with ⟨-, links⟩ | ⟨-, notes⟩
    · exact needsBoth (.inl links)
    · exact needsBoth (.inr notes)
  exact changesLeg .insert (f := fun parent links => links.forM (insertRow parent))
    (changesForM row links)

theorem changesDelete (failing : List Leg) (parent : Int) (links : List Link) :
    Changes failing (backend.delete parent links) fun d =>
      if failing.contains .delete then none else removed parent links d := by
  refine changesLeg .delete (changesChange failing (.deleteRows _) _ ?_)
  intro d missing
  rcases missingOf missing with ⟨-, links⟩ | ⟨-, notes⟩
  · exact needsBoth (.inl links)
  · exact needsBoth (.inr notes)

theorem noteNeeds {d : Database} {st : Statement} (links : st.needsLinks = false)
    (missing : st.missingTable? d ≠ none) : d.notes = none := by
  rcases missingOf missing with ⟨needs, -⟩ | ⟨-, notes⟩
  · rw [links] at needs
    contradiction
  · exact notes

theorem actsWriteNote (failing : List Leg) (d : Database) (id : Option Int) (title body : Text)
    (hasLinks : Bool) :
    Acts failing (writeNote d id title body hasLinks) fun copy =>
      (persistNote id title body hasLinks d).map fun r => ((r.2, r.1), copy) := by
  cases id with
  | none =>
    have sends := actsSend failing .addNote [] (d := d) (f := (·.addNote title body hasLinks))
      fun missing => notesNeeded (noteNeeds rfl missing) _
    have same : (fun copy : Database =>
        (sent [] (d.addNote title body hasLinks)).map fun a => (a, copy)) =
        fun copy => (persistNote none title body hasLinks d).map fun r => ((r.2, r.1), copy) := by
      funext copy
      simp only [persistNote, Option.map_map]
      rfl
    exact same ▸ sends
  | some id =>
    have sends := actsSend failing .noteById [id] (d := d) (f := (·.note? id))
      fun missing => notesNeeded (noteNeeds rfl missing) _
    have rest : ∀ found : Option NoteRow, Acts failing
        (match found with
          | none => Run.fail (.noteNotFound id)
          | some _ => do
            let d ← Run.ofExcept (d.setNote id title body hasLinks)
            pure (d, id) : Run Storage (Database × Int))
        fun copy => (match found with
          | none => none
          | some _ => (d.setNote id title body hasLinks).toOption.map fun d => (id, d)).map
            fun r : Int × Database => ((r.2, r.1), copy) := by
      intro found
      cases found with
      | none =>
        refine ⟨fun s => frameRefl s, fun s a copy _ given => ?_, fun s _ _ => ⟨_, rfl⟩⟩
        contradiction
      | some note =>
        cases set : d.setNote id title body hasLinks with
        | ok later => exact actsPure failing (later, id)
        | error fault =>
          refine ⟨fun s => frameRefl s, fun s a copy _ given => ?_, fun s _ _ => ⟨fault, rfl⟩⟩
          contradiction
    have both := actsBind sends rest
    have same : (fun copy : Database => ((sent [id] (d.note? id)).map fun a => (a, copy)).bind fun r =>
        (match r.1 with
          | none => none
          | some _ => (d.setNote id title body hasLinks).toOption.map fun d => (id, d)).map
            fun q : Int × Database => ((q.2, q.1), r.2)) =
        fun copy => (persistNote (some id) title body hasLinks d).map
          fun r => ((r.2, r.1), copy) := by
      funext copy
      simp only [persistNote]
      cases sent [id] (d.note? id) with
      | none => rfl
      | some found => rfl
    exact same ▸ both

theorem actsWrite (failing : List Leg) (id : Option Int) (title body : Text) (hasLinks : Bool) :
    Acts failing (write id title body hasLinks) (persistNote id title body hasLinks) where
  frame s := by
    have kept := (actsWithin (.save title)
      (actsWriteNote failing s.working id title body hasLinks)).frame s
    simp only [write, Run.bind_apply, Run.get]
    rcases run : within (.save title) (writeNote s.working id title body hasLinks) s with ⟨t, trace, r⟩
    rw [run] at kept
    cases r with
    | error fault => exact kept
    | ok r => exact ⟨kept.committed, kept.failing, kept.failure⟩
  done s a d same given := by
    have acts := actsWithin (.save title) (actsWriteNote failing s.working id title body hasLinks)
    have run := acts.done s (d, a) s.working same (by rw [given]; rfl)
    unfold write
    rw [Run.endsBind, Run.endsGet, Run.endsBind]
    refine Run.endsMono run ?_
    intro _ t post
    obtain ⟨rfl, -⟩ := post
    simp only [Run.endsBind, Run.endsModify, debug, Run.endsLog, Run.endsPure]
    exact ⟨trivial, trivial⟩
  refused s same none := by
    have acts := actsWithin (.save title) (actsWriteNote failing s.working id title body hasLinks)
    obtain ⟨fault, result⟩ := acts.refused s same (by rw [none]; rfl)
    refine ⟨fault, ?_⟩
    simp only [write, Run.bind_apply, Run.get]
    rcases run : within (.save title) (writeNote s.working id title body hasLinks) s with ⟨t, trace, r⟩
    rw [run] at result
    cases result
    rfl

end Storage

end ModalNotes
