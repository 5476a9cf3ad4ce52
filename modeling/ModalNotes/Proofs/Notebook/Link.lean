import ModalNotes.Proofs.Notebook.Deed

/-! Linking to a note by its title. A link that is made is live, on the span of the anchor that waited, and leads
to the one note of the title; a failure leaves the tables. But the note is created before it is known whether the
anchor still has its text: if not, the note is there and the link is not. -/
namespace ModalNotes

namespace Database

def Keyed (d : Database) : Prop :=
  (d.notes.getD []).Pairwise fun m n => m.id ≠ n.id ∧ m.title ≠ n.title

def titled (d : Database) (title : Text) : List NoteRow := (d.notes.getD []).filter (·.title == title)

section

variable {d later : Database} {title body : Text} {hasLinks : Bool} {id : Int}

theorem addNoteGives (added : d.addNote title body hasLinks = .ok (later, id)) :
    d.Tops id ∧ (∀ n ∈ d.notes.getD [], n.title ≠ title) ∧
      later.notes.getD [] = d.notes.getD [] ++ [⟨id, title, body, hasLinks⟩] := by
  obtain ⟨-, above, -, -⟩ := addNoteWrites added
  unfold addNote at added
  cases notes : d.notes with
  | none => simp [needNotes, notes, bind, Except.bind] at added
  | some rows =>
    simp only [needNotes, notes, bind, Except.bind] at added
    split at added
    · contradiction
    rename_i free
    split at added
    · cases added
      exact ⟨above, by simpa using free, rfl⟩
    · contradiction

theorem addNoteKeyed (keyed : d.Keyed) (added : d.addNote title body hasLinks = .ok (later, id)) :
    later.Keyed := by
  obtain ⟨above, free, notes⟩ := addNoteGives added
  rw [Keyed, notes]
  refine List.pairwise_append.mpr ⟨keyed, List.pairwise_singleton _ _, fun m member n new => ?_⟩
  rw [List.mem_singleton.mp new]
  exact ⟨Int.ne_of_lt (above m member), free m member⟩

theorem setNoteKeyed (keyed : d.Keyed) (set : d.setNote id title body hasLinks = .ok later) : later.Keyed := by
  unfold setNote at set
  cases notes : d.notes with
  | none => simp [needNotes, notes, bind, Except.bind] at set
  | some rows =>
    rw [Keyed, notes, Option.getD_some] at keyed
    simp only [needNotes, notes, bind, Except.bind] at set
    split at set
    · contradiction
    rename_i free
    cases set
    have others : ∀ n ∈ rows, n.id ≠ id → n.title ≠ title := by simpa using free
    rw [Keyed, Option.getD_some, List.pairwise_map]
    refine keyed.imp_of_mem fun {m n} left right apart => ?_
    by_cases mine : m.id = id
    · have other : n.id ≠ id := fun yours => apart.1 (mine.trans yours.symm)
      rw [if_pos mine, if_neg other]
      exact ⟨Ne.symm other, Ne.symm (others n right other)⟩
    · rw [if_neg mine]
      split
      · exact ⟨mine, others m left mine⟩
      · exact apart

theorem Deletes.keyed (deletes : Deletes d later id) (keyed : d.Keyed) : later.Keyed := by
  rw [Keyed, deletes.notes, Option.getD_some]
  exact keyed.filter _

theorem persistNoteKeyed {parent : Option Int} (keyed : d.Keyed)
    (h : persistNote parent title body hasLinks d = some (id, later)) : later.Keyed := by
  cases parent with
  | none =>
    obtain ⟨r, given, same⟩ := Option.map_eq_some_iff.mp h
    cases same
    exact addNoteKeyed keyed (sentSome given).2
  | some n =>
    obtain ⟨found, -, rest⟩ := Option.bind_eq_some_iff.mp h
    cases found with
    | none => contradiction
    | some note =>
      obtain ⟨_, set, same⟩ := Option.map_eq_some_iff.mp rest
      cases same
      cases outcome : d.setNote id title body hasLinks with
      | error fault =>
        rw [outcome] at set
        contradiction
      | ok d' =>
        rw [outcome] at set
        cases set
        exact setNoteKeyed keyed outcome

theorem persistKeyed {failing : List Leg} {links : LinkStore} (keyed : d.Keyed)
    (there : d.links.isSome = true)
    (h : persist failing links title body hasLinks d = some (id, later)) : later.Keyed := by
  obtain ⟨⟨n, middle⟩, note, rest⟩ := Option.bind_eq_some_iff.mp h
  obtain ⟨last, legs, same⟩ := Option.map_eq_some_iff.mp rest
  cases same
  obtain ⟨rows, stored⟩ := Option.isSome_iff_exists.mp there
  obtain ⟨-, -, -, kept, -⟩ := persistNoteWrites note
  rw [Keyed, (persistLinksGives legs (kept.trans stored)).1]
  exact persistNoteKeyed keyed note

theorem titledOne (keyed : d.Keyed) {rows : List NoteRow} (notes : d.notes = some rows) {note : NoteRow}
    (found : rows.find? (·.title == title) = some note) : d.titled title = [note] := by
  obtain ⟨same, before, behind, parts, none⟩ := List.find?_eq_some_iff_append.mp found
  rw [Keyed, notes, Option.getD_some, parts] at keyed
  have apart := (List.pairwise_cons.mp (List.pairwise_append.mp keyed).2.1).1
  have front : before.filter (·.title == title) = [] :=
    List.filter_eq_nil_iff.mpr fun m member => by simpa using none m member
  have back : behind.filter (·.title == title) = [] := by
    refine List.filter_eq_nil_iff.mpr fun m member => ?_
    rw [← beq_iff_eq.mp same]
    simpa using Ne.symm (apart m member).2
  have own := List.filter_cons_of_pos (p := fun n : NoteRow => n.title == title) (l := behind) same
  rw [titled, notes, Option.getD_some, parts, List.filter_append, own, front, back]
  rfl

theorem Targets.one (keyed : d.Keyed) (targets : d.Targets later title id) :
    (∃ note, later.titled title = [note] ∧ note.id = id) ∧
      (later = d ∨ d.addNote title [] false = .ok (later, id)) := by
  rcases targets with ⟨found, rfl⟩ | ⟨-, added⟩
  · refine ⟨?_, .inl rfl⟩
    cases notes : later.notes with
    | none => simp [idOfTitle?, needNotes, notes, bind, Except.bind] at found
    | some rows =>
      simp only [idOfTitle?, needNotes, notes, bind, Except.bind, Except.ok.injEq] at found
      obtain ⟨note, here, same⟩ := Option.map_eq_some_iff.mp found
      exact ⟨note, titledOne keyed notes here, same⟩
  · obtain ⟨-, free, notes⟩ := addNoteGives added
    have others : d.titled title = [] :=
      List.filter_eq_nil_iff.mpr fun n member => by simpa using free n member
    refine ⟨⟨⟨id, title, [], false⟩, ?_, rfl⟩, .inr added⟩
    rw [titled, notes, List.filter_append]
    simpa [titled] using others

end

end Database

namespace Workspace

theorem keyedAdvance {w : Workspace} (based : w.Based) (keyed : w.storage.committed.Keyed) (deed : Deed) :
    (w.advance deed).storage.committed.Keyed := by
  cases deed with
  | create desk title text maxHistory =>
    simp only [advance, step]
    split <;> exact keyed
  | load desk id maxHistory =>
    have frame := (Notebook.loadRuns based.tables maxHistory id).1
    unfold advance
    dsimp only
    split <;> exact frame.committed ▸ keyed
  | work desk task =>
    cases here : w.sessions desk with
    | none =>
      simp only [advance, step, here]
      exact keyed
    | some s =>
      simp only [advance, step, here]
      change (task.run ⟨s, w.storage⟩).state.storage.committed.Keyed
      cases Notebook.taskGoes (d := ⟨s, w.storage⟩) (based.owned desk s here) task with
      | on unsaved note owned served created =>
        rcases created.committed with same | ⟨title, id, added⟩
        · exact same ▸ keyed
        · exact Database.addNoteKeyed keyed added
      | saved saving given session committed =>
        rw [committed]
        unfold Notebook.savedBy at given
        split at given
        · contradiction
        · exact Database.persistKeyed keyed based.tables.links given
  | delete id =>
    obtain ⟨-, -, outcome⟩ := Notebook.deleteAfter based.tables id
    change (Notebook.delete id w.storage).state.committed.Keyed
    cases result : (Notebook.delete id w.storage).result with
    | error fault =>
      rw [result] at outcome
      exact outcome ▸ keyed
    | ok found =>
      rw [result] at outcome
      exact outcome.2.keyed keyed
  | faults failing failure => exact keyed

theorem keyedThrough {w : Workspace} (based : w.Based) (keyed : w.storage.committed.Keyed)
    (deeds : List Deed) : (w.through deeds).storage.committed.Keyed := by
  induction deeds generalizing w with
  | nil => exact keyed
  | cons deed rest ih => exact ih (basedTurn based (turns based deed)) (keyedAdvance based keyed deed)

end Workspace

namespace Session

def Vanished (s : Session) : Prop :=
  ∃ id a, s.pendingAnchor = some id ∧ s.buffer.anchors.get? id = some a ∧ a.deleted = true

theorem attachedNone {s : Session} (sound : s.Sound) (waits : s.pendingAnchor ≠ none) {linked : Int}
    (none' : s.attached linked = none) : s.Vanished := by
  obtain ⟨id, waiting⟩ := Option.ne_none_iff_exists'.mp waits
  obtain ⟨a, found⟩ := Table.someOfMem (sound.pending id waiting).1
  refine ⟨id, a, waiting, found, ?_⟩
  by_contra live
  simp [attached, waiting, found, live] at none'

theorem attachedSome {s : Session} {linked : Int} {link : Link} (some' : s.attached linked = some link) :
    s.pendingAnchor = some link.anchor ∧ link.linked = linked ∧ link.deleted = false ∧
      ∃ a, s.buffer.anchors.get? link.anchor = some a ∧ a.deleted = false ∧ link.geometry = a.geometry := by
  obtain ⟨id, waiting, rest⟩ := Option.bind_eq_some_iff.mp some'
  obtain ⟨a, chosen, rfl⟩ := Option.map_eq_some_iff.mp rest
  obtain ⟨found, live⟩ := Option.filter_eq_some_iff.mp chosen
  exact ⟨waiting, rfl, rfl, a, found, by simpa using live, rfl⟩

end Session

namespace Notebook

open Session

structure Linked (before : Desk) (title : Text) (link : Link) (later : Desk) : Prop where
  waited : before.session.pendingAnchor = some link.anchor
  span : ∃ a, before.session.buffer.anchors.get? link.anchor = some a ∧ a.deleted = false ∧
    link.geometry = a.geometry
  live : link ∈ later.session.links.live
  editor : later.session.editor = before.session.editor
  target : ∃ note, later.storage.committed.titled (Text.strip title) = [note] ∧ note.id = link.linked
  notes : later.storage.committed = before.storage.committed ∨
    before.storage.committed.addNote (Text.strip title) [] false = .ok (later.storage.committed, link.linked)
  rests : later.session.pendingAnchor = none

/- A failure leaves the tables as they were, and a link that is made is right. Without a link the tables are as
they were too, unless the waiting anchor has lost its text: then its note may have come. -/
theorem linkTellsTables {s : Session} (opened : Opened s) (steps : List Step) {w : Storage}
    (keyed : w.committed.Keyed) (title : Text) :
    (linkTo title).After ⟨s.along steps, w⟩ fun r later =>
      match r with
      | .error _ => later.storage.committed = w.committed
      | .ok none => later.storage.committed = w.committed ∨ (s.along steps).Vanished ∧
          ∃ id, w.committed.addNote (Text.strip title) [] false = .ok (later.storage.committed, id)
      | .ok (some link) => Linked ⟨s.along steps, w⟩ title link later := by
  have sound := alongSound (openedSound opened) steps
  refine Run.afterMono (linkToRuns title ⟨s.along steps, w⟩) ?_
  intro r later post
  obtain ⟨-, ⟨-, -, same, nothing⟩ | ⟨target, session, result, waits, -, targets⟩⟩ := post
  · match r with
    | .error fault => exact same
    | .ok none => exact .inl same
    | .ok (some link) => exact nomatch nothing _ rfl
  · obtain ⟨link, ok, -, editor, rests, -, given, entered⟩ := attachLinkEnds sound target
    obtain ⟨one, notes⟩ := targets.one keyed
    rw [result, ok]
    cases link with
    | none => exact notes.imp_right fun added => ⟨attachedNone sound waits given.symm, target, added⟩
    | some link =>
      obtain ⟨waited, rfl, live, span⟩ := attachedSome given.symm
      refine ⟨waited, span, ?_, session ▸ editor, one, notes, session ▸ rests⟩
      rw [session]
      exact List.mem_filter.mpr ⟨List.mem_map_of_mem (entered link rfl), by simp [live]⟩

theorem resultOf {α : Type} {r : Except Fault α} {x : α} (same : r.toOption = some x) : r = .ok x := by
  cases r with
  | error fault => contradiction
  | ok y => exact congrArg Except.ok (Option.some.inj same)

def wiping : List Step := drawing ++ [⟨.input (.key ['x'] []), {}⟩]

theorem wipedAnchorLeavesNote :
    (∃ link, (linkTo ['q'] ⟨lettered.along drawing, {}⟩).result = .ok (some link) ∧
      Linked ⟨lettered.along drawing, {}⟩ ['q'] link (linkTo ['q'] ⟨lettered.along drawing, {}⟩).state) ∧
    (linkTo ['q'] ⟨lettered.along wiping, {}⟩).result = .ok none ∧ (lettered.along wiping).Vanished ∧
    (linkTo ['q'] ⟨lettered.along wiping, {}⟩).state.storage.committed.titled ['q'] =
      [⟨1, ['q'], [], false⟩] := by
  have keyed : Database.Keyed ({} : Storage).committed := List.Pairwise.nil
  have made : (linkTo ['q'] ⟨lettered.along drawing, {}⟩).result.toOption.join.isSome = true := by
    decide +kernel
  have lost : (linkTo ['q'] ⟨lettered.along wiping, {}⟩).result.toOption = some none ∧
      (linkTo ['q'] ⟨lettered.along wiping, {}⟩).state.storage.committed.titled ['q'] =
        [⟨1, ['q'], [], false⟩] := by
    decide +kernel
  -- The sessions are set aside, so that nothing evaluates them once more.
  have linked := @linkTellsTables lettered letteredOpened drawing {} keyed
  have wiped := @linkTellsTables lettered letteredOpened wiping {} keyed
  generalize lettered.along drawing = s at linked made ⊢
  generalize lettered.along wiping = t at wiped lost ⊢
  specialize linked ['q']
  specialize wiped ['q']
  rw [Run.After] at linked wiped
  obtain ⟨lost, note⟩ := lost
  obtain ⟨link, made⟩ := Option.isSome_iff_exists.mp made
  have made := resultOf (Option.join_eq_some_iff.mp made)
  have lost := resultOf lost
  rw [made] at linked
  rw [lost] at wiped
  refine ⟨⟨link, made, linked⟩, lost, wiped.elim (fun same => ?_) And.left, note⟩
  rw [same] at note
  exact absurd note (List.cons_ne_nil _ _).symm

end Notebook

end ModalNotes
