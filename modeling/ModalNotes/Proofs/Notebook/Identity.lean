import ModalNotes.Proofs.Notebook.Deed
import ModalNotes.Proofs.Notebook.Gone

/-! Which note a session is saved to. It is bound to an id and stays bound to it, and saves nothing but the
note of that id. That is the note it was opened with for as long as this note is not deleted. An id is given
again when no note lies above it, and then it is another note's. -/
namespace ModalNotes.Workspace

def Deed.opens (desk : Nat) : Deed → Bool
  | .create other _ _ _ | .load other _ _ => other == desk
  | .work _ _ | .delete _ | .faults _ _ => false

def Throughout (P : Workspace → Prop) (w : Workspace) : List Deed → Prop
  | [] => P w
  | deed :: rest => P w ∧ Throughout P (w.advance deed) rest

def Present (id : Int) (w : Workspace) : Prop := (w.storage.committed.noteOf id).isSome = true

def Topped (id : Int) (w : Workspace) : Prop := ∃ n ∈ w.storage.committed.notes.getD [], id < n.id

section
variable {w later : Workspace} {h : Happening} {desk : Nat} {id : Int}

theorem openedBy {deed : Deed} {note : Option Int} (opened : w.happens deed = .opened desk note) :
    deed.opens desk = true := by
  cases deed with
  | create other title text maxHistory =>
    cases opened
    exact beq_self_eq_true desk
  | load other n maxHistory =>
    simp only [happens] at opened
    split at opened <;> cases opened
    exact beq_self_eq_true desk
  | work other task =>
    simp only [happens] at opened
    split at opened
    · split at opened <;> contradiction
    · contradiction
  | delete n =>
    simp only [happens] at opened
    split at opened <;> contradiction
  | faults failing failure => contradiction

theorem deletedBy {deed : Deed} (deleted : w.happens deed = .deleted id) : deed = .delete id := by
  cases deed with
  | create other title text maxHistory => contradiction
  | load other n maxHistory =>
    simp only [happens] at deleted
    split at deleted <;> contradiction
  | work other task =>
    simp only [happens] at deleted
    split at deleted
    · split at deleted <;> contradiction
    · contradiction
  | delete n =>
    simp only [happens] at deleted
    split at deleted <;> cases deleted
    rfl
  | faults failing failure => contradiction

theorem boundTurn (turn : w.Turn h later) (stays : ∀ note, h ≠ .opened desk note) {s : Session}
    (here : w.sessions desk = some s) (bound : s.noteId = some id) :
    ∃ t, later.sessions desk = some t ∧ t.noteId = some id := by
  have elsewhere : ∀ {storage : Storage} {other : Nat} {t : Session}, desk ≠ other →
      ∃ u, ({ w with storage }.seat other t).sessions desk = some u ∧ u.noteId = some id :=
    fun differs => ⟨s, (if_neg differs).trans here, bound⟩
  cases turn with
  | still same => exact ⟨s, here, bound⟩
  | created other title text maxHistory =>
    exact @elsewhere w.storage other _ fun same => stays none (by rw [same])
  | loaded other maxHistory same found narrow => exact elsewhere fun same => stays _ (by rw [same])
  | @went other t u storage there note owned served created =>
    by_cases mine : desk = other
    · cases mine
      cases here.symm.trans there
      exact ⟨u, if_pos rfl, note.trans bound⟩
    · exact elsewhere mine
  | @saved other t n storage there saves =>
    by_cases mine : desk = other
    · cases mine
      cases here.symm.trans there
      refine ⟨_, if_pos rfl, (Session.noteSaved saves).trans ?_⟩
      rw [saves.same id bound]
    · exact elsewhere mine
  | deleted deletes => exact ⟨s, here, bound⟩

/- A note is deleted, or stays, or is written; it only comes under an id above all others. -/
theorem noteTurn (turn : w.Turn h later) (id : Int) :
    later.storage.committed.noteOf id = w.storage.committed.noteOf id ∨
      (h = .deleted id ∧ later.storage.committed.noteOf id = none) ∨
      later.Present id ∧ (w.storage.committed.noteOf id = none → w.storage.committed.Tops id) := by
  cases turn with
  | still same => exact .inl (congrArg (·.noteOf id) same)
  | created other title text maxHistory => exact .inl rfl
  | loaded other maxHistory same found narrow => exact .inl (congrArg (·.noteOf id) same)
  | @went desk s t storage there note owned served created =>
    cases was : w.storage.committed.noteOf id with
    | some n =>
      have known : (w.storage.committed.noteOf id).isSome = true := congrArg Option.isSome was
      have same := Storage.createdNote created known
      exact .inl (same.trans was)
    | none =>
      cases new : storage.committed.noteOf id with
      | none => exact .inl new
      | some n =>
        exact .inr (.inr ⟨congrArg Option.isSome new, fun _ => (Storage.createdNew created was new).1⟩)
  | @saved other t n storage there saves =>
    by_cases mine : id = n
    · cases mine
      refine .inr (.inr ⟨congrArg Option.isSome saves.writes.found, fun absent => ?_⟩)
      cases parent : t.links.parent with
      | none => exact saves.above parent
      | some k =>
        have known := saves.there k parent
        dsimp only at known
        rw [absent] at known
        contradiction
    · exact .inl (saves.writes.others id mine)
  | @deleted n storage deletes =>
    by_cases mine : id = n
    · cases mine
      exact .inr (.inl ⟨rfl, deletes.gone⟩)
    · exact .inl (deletes.others mine)

theorem presentTurn (turn : w.Turn h later) (spared : h ≠ .deleted id) (present : w.Present id) :
    later.Present id := by
  rcases noteTurn turn id with same | ⟨gone, -⟩ | ⟨there, -⟩
  · rw [Present, same]
    exact present
  · exact absurd gone spared
  · exact there

theorem bornTurn (turn : w.Turn h later) (absent : w.storage.committed.noteOf id = none)
    (present : later.Present id) : w.storage.committed.Tops id := by
  rcases noteTurn turn id with same | ⟨-, gone⟩ | ⟨-, above⟩
  · rw [Present, same, absent] at present
    contradiction
  · rw [Present, gone] at present
    contradiction
  · exact above absent

theorem boundThrough (based : w.Based) {deeds : List Deed}
    (stays : ∀ deed ∈ deeds, deed.opens desk = false) {s : Session} (here : w.sessions desk = some s)
    (bound : s.noteId = some id) : ∃ t, (w.through deeds).sessions desk = some t ∧ t.noteId = some id := by
  induction deeds generalizing w s with
  | nil => exact ⟨s, here, bound⟩
  | cons deed rest ih =>
    have turn := turns based deed
    have stays' : ∀ note, w.happens deed ≠ .opened desk note := by
      intro note opened
      have closed := stays deed List.mem_cons_self
      rw [openedBy opened] at closed
      contradiction
    obtain ⟨t, here', bound'⟩ := boundTurn turn stays' here bound
    exact ih (basedTurn based turn) (fun d member => stays d (List.mem_cons_of_mem deed member))
      here' bound'

theorem presentThrough (based : w.Based) {deeds : List Deed} (spared : ∀ deed ∈ deeds, deed ≠ .delete id)
    (present : w.Present id) : Throughout (Present id) w deeds := by
  induction deeds generalizing w with
  | nil => exact present
  | cons deed rest ih =>
    have turn := turns based deed
    have present' := presentTurn turn (fun gone => spared deed List.mem_cons_self (deletedBy gone)) present
    exact ⟨present, ih (basedTurn based turn)
      (fun d member => spared d (List.mem_cons_of_mem deed member)) present'⟩

theorem absentThrough (based : w.Based) {deeds : List Deed} (topped : Throughout (Topped id) w deeds)
    (absent : w.storage.committed.noteOf id = none) :
    (w.through deeds).storage.committed.noteOf id = none := by
  induction deeds generalizing w with
  | nil => exact absent
  | cons deed rest ih =>
    have turn := turns based deed
    refine ih (basedTurn based turn) topped.2 ?_
    cases back : (w.advance deed).storage.committed.noteOf id with
    | none => rfl
    | some note =>
      have above := bornTurn turn absent (congrArg Option.isSome back)
      obtain ⟨n, member, high⟩ : Topped id w := by
        cases rest with
        | nil => exact topped.1
        | cons next more => exact topped.1
      exact absurd (above n member) (Int.lt_asymm high)

end

structure Confined (d : Desk) (id : Int) : Prop where
  others : Notebook.save.Ends d fun _ t => ∀ other, other ≠ id →
    t.storage.committed.noteOf other = d.storage.committed.noteOf other ∧
      t.storage.committed.rowsIn other = d.storage.committed.rowsIn other
  gone : d.storage.committed.noteOf id = none → Notebook.save.Ends d fun out t =>
    out.ok = false ∧ t.session = d.session ∧ t.storage.committed = d.storage.committed ∧
      ((Text.strip d.session.title).isEmpty = false →
        out.message = "Save failed: ".toList ++ (Fault.noteNotFound id).message)

structure Identity (w : Workspace) (deeds : List Deed) (id : Int) : Prop where
  kept : w.Present id → (∀ deed ∈ deeds, deed ≠ .delete id) → Throughout (Present id) w deeds
  freed : ∀ done rest, deeds = done ++ rest → (w.through done).storage.committed.noteOf id = none →
    Throughout (Topped id) (w.through done) rest → (w.through deeds).storage.committed.noteOf id = none

theorem confinedBound {d : Desk} {id : Int} (rooted : d.storage.committed.Rooted)
    (owned : d.session.links.Owned) (bound : d.session.noteId = some id)
    (narrow : Database.fits id = true) : Confined d id where
  others := by
    refine Run.endsMono (Notebook.saveEnds owned) ?_
    intro out t post other differs
    obtain ⟨-, -, outcome⟩ := post
    cases given : Notebook.savedBy d with
    | none =>
      rw [given] at outcome
      rw [outcome.2.2.2]
      exact ⟨rfl, rfl⟩
    | some r =>
      obtain ⟨n, db⟩ := r
      rw [given] at outcome
      have saves := savedTables rooted given
      have differs' : other ≠ n := fun same => differs (same.trans (saves.same id bound).symm)
      rw [outcome.2.2]
      exact ⟨saves.writes.others other differs', saves.rowsOthers differs'⟩
  gone absent := Notebook.saveGone rooted owned bound absent narrow

theorem identityBased {w : Workspace} (based : w.Based) (deeds : List Deed) (id : Int) :
    Identity w deeds id where
  kept present spared := presentThrough based spared present
  freed done rest whole absent topped := by
    rw [whole, throughAppend]
    exact absentThrough (basedThrough based done) topped absent

/- From any point at which a session is bound, for as long as its desk does not open another one. -/
theorem savesBoundNote {storage : Storage} (tables : storage.committed.Rooted) (before behind : List Deed)
    {desk : Nat} {s : Session} {id : Int}
    (here : ((ofStorage storage).through before).sessions desk = some s) (bound : s.noteId = some id)
    (stays : ∀ deed ∈ behind, deed.opens desk = false) :
    (∃ t, (((ofStorage storage).through before).through behind).sessions desk = some t ∧
      t.noteId = some id ∧
      Confined ⟨t, (((ofStorage storage).through before).through behind).storage⟩ id) ∧
    Identity ((ofStorage storage).through before) behind id := by
  have based := basedThrough (basedOfStorage tables) before
  have based' := basedThrough based behind
  obtain ⟨t, there, bound'⟩ := boundThrough based stays here bound
  exact ⟨⟨t, there, bound', confinedBound based'.tables (based'.owned desk t there) bound'
    (based'.narrow desk t id there bound')⟩, identityBased based behind id⟩

def twoNotes : List Deed :=
  [.create 0 ['a'] ['x'] 1, .work 0 .save, .create 1 ['b'] ['y'] 1, .work 1 .save]

def secondReplaced : List Deed := [.delete 2, .create 2 ['c'] ['z'] 1, .work 2 .save]

theorem replacedNoteSavedOver :
    ((∃ t, (((ofStorage {}).through twoNotes).through secondReplaced).sessions 1 = some t ∧
      t.noteId = some 2 ∧
      Confined ⟨t, (((ofStorage {}).through twoNotes).through secondReplaced).storage⟩ 2) ∧
      Identity ((ofStorage {}).through twoNotes) secondReplaced 2) ∧
    ((ofStorage {}).through (twoNotes ++ secondReplaced)).storage.committed.noteOf 2 =
      some ⟨2, ['c'], ['z'], false⟩ ∧
    ((ofStorage {}).through (twoNotes ++ secondReplaced ++ [.work 1 .save])).storage.committed.noteOf 2 =
      some ⟨2, ['b'], ['y'], false⟩ := by
  have tables : ({} : Storage).committed.Rooted := Database.soundEmpty.rooted
  obtain ⟨s, here⟩ : ∃ s, ((ofStorage {}).through twoNotes).sessions 1 = some s :=
    Option.isSome_iff_exists.mp (by decide +kernel)
  have bound : (((ofStorage {}).through twoNotes).sessions 1).bind Session.noteId = some 2 := by
    decide +kernel
  rw [here] at bound
  exact ⟨savesBoundNote tables twoNotes secondReplaced here bound (by decide), by decide +kernel,
    by decide +kernel⟩

end ModalNotes.Workspace
