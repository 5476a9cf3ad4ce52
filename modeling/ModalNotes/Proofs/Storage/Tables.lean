import ModalNotes.Proofs.Link.Rows
import ModalNotes.Proofs.Session.Opened
import ModalNotes.Proofs.Storage.Persist

/-! Tables note by note. A save that goes through writes its own note and the rows of that note, and a note
that is created has no rows; all other notes and rows stay as they were. -/
namespace ModalNotes

namespace Database

def noteOf (d : Database) (id : Int) : Option NoteRow := (d.notes.getD []).find? (·.id == id)

def rowsIn (d : Database) (id : Int) : List LinkRow := LinkRow.ofNote id (d.links.getD [])

structure Sound (d : Database) : Prop where
  notes : d.notes.isSome = true
  links : d.links.isSome = true
  parents : ∀ r ∈ d.links.getD [], (d.noteOf r.parent).isSome = true
  stored : ∀ id n, d.noteOf id = some n → LinkRow.Stored id n.body (d.rowsIn id)

structure Rooted (d : Database) : Prop where
  notes : d.notes.isSome = true
  links : d.links.isSome = true
  parents : ∀ r ∈ d.links.getD [], (d.noteOf r.parent).isSome = true

theorem Sound.rooted {d : Database} (sound : d.Sound) : d.Rooted :=
  ⟨sound.notes, sound.links, sound.parents⟩

theorem soundEmpty : Sound {} :=
  ⟨rfl, rfl, fun _ member => absurd member List.not_mem_nil, fun _ _ found => nomatch found⟩

theorem noRows {d : Database} (rooted : d.Rooted) {id : Int} (free : d.noteOf id = none) :
    d.rowsIn id = [] := by
  refine List.filter_eq_nil_iff.mpr fun r member mine => ?_
  have parent : r.parent = id := by simpa using mine
  have known := rooted.parents r member
  rw [parent, free] at known
  contradiction

structure Writes (d later : Database) (note : NoteRow) : Prop where
  notes : later.notes.isSome = true
  found : later.noteOf note.id = some note
  others : ∀ id, id ≠ note.id → later.noteOf id = d.noteOf id

theorem noteOfId {d : Database} {id : Int} {note : NoteRow} (given : d.noteOf id = some note) :
    note.id = id := by
  simpa using List.find?_some given

def Tops (d : Database) (id : Int) : Prop := ∀ n ∈ d.notes.getD [], n.id < id

theorem Tops.free {d : Database} {id : Int} (above : d.Tops id) : d.noteOf id = none := by
  refine List.find?_eq_none.mpr fun n member same => ?_
  have low := above n member
  rw [show n.id = id by simpa using same] at low
  exact Int.lt_irrefl id low

theorem addNoteWrites {d later : Database} {title body : Text} {hasLinks : Bool} {id : Int}
    (added : d.addNote title body hasLinks = .ok (later, id)) :
    fits id = true ∧ d.Tops id ∧ later.links = d.links ∧
      Writes d later ⟨id, title, body, hasLinks⟩ := by
  unfold addNote at added
  cases notes : d.notes with
  | none => simp [needNotes, notes, bind, Except.bind] at added
  | some rows =>
    simp only [needNotes, notes, bind, Except.bind] at added
    split at added
    · contradiction
    split at added
    · rename_i narrow
      cases added
      have above : d.Tops (nextId rows) := by
        intro n member
        rw [notes] at member
        have low := (AnchorTable.foldMaxLe (rows.map NoteRow.id) 0).2 n.id (List.mem_map_of_mem member)
        exact Int.lt_add_one_of_le low
      have fresh : rows.find? (·.id == nextId rows) = none := by
        simpa only [noteOf, notes, Option.getD_some] using above.free
      refine ⟨narrow, above, rfl, rfl, ?_, fun other differs => ?_⟩
      · simp only [noteOf, Option.getD_some, List.find?_append, fresh, Option.none_or]
        simp
      · have unlike : (nextId rows == other) = false := beq_false_of_ne (Ne.symm differs)
        simp [noteOf, notes, List.find?_append, unlike]
    · contradiction

theorem addNoteRows {d later : Database} {title body : Text} {hasLinks : Bool} {id : Int}
    (added : d.addNote title body hasLinks = .ok (later, id)) (k : Int) :
    later.rowsIn k = d.rowsIn k := by
  rw [rowsIn, rowsIn, (addNoteWrites added).2.2.1]

theorem addNoteOthers {d later : Database} {title body : Text} {hasLinks : Bool} {id : Int}
    (added : d.addNote title body hasLinks = .ok (later, id)) {k : Int}
    (known : (d.noteOf k).isSome = true) : later.noteOf k = d.noteOf k := by
  obtain ⟨-, above, -, writes⟩ := addNoteWrites added
  refine writes.others k fun same => ?_
  rw [same, above.free] at known
  contradiction

theorem addNoteRooted {d later : Database} {title body : Text} {hasLinks : Bool} {id : Int}
    (rooted : d.Rooted) (added : d.addNote title body hasLinks = .ok (later, id)) : later.Rooted := by
  obtain ⟨-, -, links, writes⟩ := addNoteWrites added
  refine ⟨writes.notes, links ▸ rooted.links, ?_⟩
  rw [links]
  intro r member
  have known := rooted.parents r member
  rw [addNoteOthers added known]
  exact known

theorem setNoteWrites {d later : Database} {title body : Text} {hasLinks : Bool} {id : Int}
    {note : NoteRow} (there : d.noteOf id = some note)
    (set : d.setNote id title body hasLinks = .ok later) :
    later.links = d.links ∧ Writes d later ⟨id, title, body, hasLinks⟩ := by
  unfold setNote at set
  cases notes : d.notes with
  | none => simp [needNotes, notes, bind, Except.bind] at set
  | some rows =>
    simp only [needNotes, notes, bind, Except.bind] at set
    split at set
    · contradiction
    cases set
    have ids : ∀ k : Int, (fun n : NoteRow => n.id == k) ∘
        (fun n => if n.id = id then ⟨id, title, body, hasLinks⟩ else n) = fun n => n.id == k := by
      intro k
      funext n
      by_cases same : n.id = id <;> simp [same]
    refine ⟨rfl, rfl, ?_, fun other differs => ?_⟩
    · rw [noteOf, notes] at there
      have same : note.id = id := by simpa using List.find?_some there
      simp only [noteOf, Option.getD_some, List.find?_map, ids]
      rw [show rows.find? (·.id == id) = some note from there, Option.map_some, if_pos same]
    · simp only [noteOf, notes, Option.getD_some, List.find?_map, ids]
      cases found : rows.find? (·.id == other) with
      | none => rfl
      | some n =>
        have same : n.id = other := by simpa using List.find?_some found
        have unlike : ¬ n.id = id := fun mine => differs (same.symm.trans mine)
        rw [Option.map_some, if_neg unlike]

theorem sentSome {α : Type} {numbers : List Int} {r : Except Fault α} {a : α}
    (h : sent numbers r = some a) : numbers.all fits = true ∧ r = .ok a := by
  unfold sent at h
  split at h
  · rename_i narrow
    refine ⟨narrow, ?_⟩
    cases r with
    | error fault => contradiction
    | ok b =>
      cases h
      rfl
  · contradiction

theorem noteFound {d : Database} {id : Int} {found : Option NoteRow} (h : d.note? id = .ok found) :
    found = d.noteOf id := by
  unfold note? at h
  cases notes : d.notes with
  | none => simp [needNotes, notes, bind, Except.bind] at h
  | some rows =>
    simp only [needNotes, notes, bind, Except.bind, Except.ok.injEq] at h
    rw [noteOf, notes]
    exact h.symm

theorem persistNoteWrites {parent : Option Int} {title body : Text} {hasLinks : Bool}
    {d later : Database} {id : Int}
    (h : persistNote parent title body hasLinks d = some (id, later)) :
    fits id = true ∧ (parent = none → d.Tops id) ∧
      (∀ n, parent = some n → n = id ∧ (d.noteOf id).isSome = true) ∧
      later.links = d.links ∧ Writes d later ⟨id, title, body, hasLinks⟩ := by
  cases parent with
  | none =>
    obtain ⟨r, given, same⟩ := Option.map_eq_some_iff.mp h
    cases same
    obtain ⟨narrow, above, links, writes⟩ := addNoteWrites (sentSome given).2
    exact ⟨narrow, fun _ => above, fun n none => by contradiction, links, writes⟩
  | some n =>
    obtain ⟨found, given, rest⟩ := Option.bind_eq_some_iff.mp h
    obtain ⟨narrow, asked⟩ := sentSome given
    cases found with
    | none => contradiction
    | some note =>
      obtain ⟨d', set, same⟩ := Option.map_eq_some_iff.mp rest
      cases same
      have set' : d.setNote id title body hasLinks = .ok later := by
        cases r : d.setNote id title body hasLinks with
        | error fault =>
          rw [r] at set
          contradiction
        | ok d' =>
          rw [r] at set
          cases set
          rfl
      have there := (noteFound asked).symm
      obtain ⟨links, writes⟩ := setNoteWrites there set'
      refine ⟨by simpa using narrow, fun none => by contradiction, fun m same => ?_, links, writes⟩
      cases same
      rw [there]
      exact ⟨rfl, rfl⟩

theorem updatedAll {parent : Int} {links : List Link} {d later : Database} {rows : List LinkRow}
    (given : links.foldlM (updated parent) d = some later) (stored : d.links = some rows) :
    later.notes = d.notes ∧ later.links = some (rows.map (links.foldl (Link.touch parent))) := by
  induction links generalizing d rows with
  | nil =>
    cases given
    exact ⟨rfl, stored.trans (congrArg some (List.map_id _).symm)⟩
  | cons l rest ih =>
    rw [List.foldlM_cons] at given
    obtain ⟨middle, first, others⟩ := Option.bind_eq_some_iff.mp given
    have one := (sentSome first).2
    simp only [updateRow, needLinks, stored, bind, Except.bind, Except.ok.injEq] at one
    cases one
    obtain ⟨notes, links⟩ := ih others rfl
    refine ⟨notes, links.trans ?_⟩
    rw [List.map_map]
    rfl

theorem insertedAll {parent : Int} {links : List Link} {d later : Database} {rows : List LinkRow}
    (given : links.foldlM (inserted parent) d = some later) (stored : d.links = some rows) :
    later.notes = d.notes ∧ later.links = some (rows ++ links.map (Link.rowOf parent)) := by
  induction links generalizing d rows with
  | nil =>
    cases given
    exact ⟨rfl, stored.trans (congrArg some (List.append_nil _).symm)⟩
  | cons l rest ih =>
    rw [List.foldlM_cons] at given
    obtain ⟨middle, first, others⟩ := Option.bind_eq_some_iff.mp given
    have one := (sentSome first).2
    cases notes : d.notes with
    | none => simp [insertRow, needLinks, needNotes, stored, notes, bind, Except.bind] at one
    | some ns =>
      simp only [insertRow, needLinks, needNotes, stored, notes, bind, Except.bind] at one
      split at one
      · cases one
        obtain ⟨notes', links⟩ := ih others rfl
        refine ⟨notes', links.trans ?_⟩
        rw [List.append_assoc]
        rfl
      · contradiction

theorem legOnSome {failing : List Leg} {leg : Leg} {links : List Link} {p : Database → Option Database}
    {d later : Database} (h : legOn failing leg links p d = some later) :
    links = [] ∧ later = d ∨ p d = some later := by
  unfold legOn at h
  split at h
  · rename_i empty
    cases h
    exact .inl ⟨List.isEmpty_iff.mp empty, rfl⟩
  · split at h
    · contradiction
    · exact .inr h

theorem removedRows {parent : Int} {links : List Link} {d later : Database} {rows : List LinkRow}
    (given : links = [] ∧ later = d ∨ removed parent links d = some later)
    (stored : d.links = some rows) : later.notes = d.notes ∧
      later.links = some (rows.filter fun r =>
        r.parent != parent || !(links.map Link.anchor).contains r.anchor) := by
  rcases given with ⟨rfl, rfl⟩ | given
  · refine ⟨rfl, stored.trans (congrArg some ?_)⟩
    refine (List.filter_eq_self.mpr fun r _ => ?_).symm
    simp
  · have one := (sentSome given).2
    cases notes : d.notes with
    | none => simp [deleteRows, needLinks, needNotes, stored, notes, bind, Except.bind] at one
    | some ns =>
      simp only [deleteRows, needLinks, needNotes, stored, notes, bind, Except.bind,
        Except.ok.injEq] at one
      cases one
      exact ⟨rfl, rfl⟩

theorem persistLinksGives {failing : List Leg} {parent : Int} {diff : LinkDiff} {d later : Database}
    {rows : List LinkRow} (h : persistLinks failing parent diff d = some later)
    (stored : d.links = some rows) :
    later.notes = d.notes ∧ later.links = some (diff.onRows parent rows) := by
  obtain ⟨last, legs, committed⟩ := Option.bind_eq_some_iff.mp h
  split at committed
  · contradiction
  cases committed
  obtain ⟨u, update, legs'⟩ := Option.bind_eq_some_iff.mp legs
  obtain ⟨v, insert, delete⟩ := Option.bind_eq_some_iff.mp legs'
  have update' : diff.toUpdate.foldlM (updated parent) d = some u := by
    rcases legOnSome update with ⟨empty, rfl⟩ | given
    · rw [empty]
      rfl
    · exact given
  have insert' : diff.toInsert.foldlM (inserted parent) u = some v := by
    rcases legOnSome insert with ⟨empty, rfl⟩ | given
    · rw [empty]
      rfl
    · exact given
  obtain ⟨notes, links⟩ := updatedAll update' stored
  obtain ⟨notes', links'⟩ := insertedAll insert' links
  obtain ⟨notes'', links''⟩ := removedRows (legOnSome delete) links'
  exact ⟨notes''.trans (notes'.trans notes), links''⟩

structure Saves (d later : Database) (parent : Option Int) (note : NoteRow) (diff : LinkDiff) :
    Prop where
  fits : fits note.id = true
  above : parent = none → d.Tops note.id
  same : ∀ n, parent = some n → n = note.id
  there : ∀ n, parent = some n → (d.noteOf note.id).isSome = true
  writes : Writes d later note
  links : later.links = some (diff.onRows note.id (d.links.getD []))

theorem persistSaves {failing : List Leg} {links : LinkStore} {title body : Text} {hasLinks : Bool}
    {d later : Database} {id : Int} (there : d.links.isSome = true)
    (h : persist failing links title body hasLinks d = some (id, later)) :
    Saves d later links.parent ⟨id, title, body, hasLinks⟩ links.classify := by
  obtain ⟨⟨n, middle⟩, note, rest⟩ := Option.bind_eq_some_iff.mp h
  obtain ⟨last, legs, same⟩ := Option.map_eq_some_iff.mp rest
  cases same
  obtain ⟨rows, stored⟩ := Option.isSome_iff_exists.mp there
  obtain ⟨narrow, above, known, kept, writes⟩ := persistNoteWrites note
  obtain ⟨notes, links'⟩ := persistLinksGives legs (kept.trans stored)
  have noteOf' : ∀ k, later.noteOf k = middle.noteOf k := fun k => by rw [noteOf, noteOf, notes]
  refine ⟨narrow, above, fun n same => (known n same).1, fun n same => (known n same).2,
    ⟨?_, ?_, fun other differs => ?_⟩, ?_⟩
  · rw [notes]
    exact writes.notes
  · rw [noteOf']
    exact writes.found
  · rw [noteOf']
    exact writes.others other differs
  · rw [stored]
    exact links'

section
variable {d later : Database} {parent : Option Int} {note : NoteRow} {diff : LinkDiff}

theorem Saves.fresh (saves : Saves d later parent note diff) (none' : parent = none) :
    d.noteOf note.id = none := (saves.above none').free

theorem Saves.rows (saves : Saves d later parent note diff) (id : Int) :
    later.rowsIn id = LinkRow.ofNote id (diff.onRows note.id (d.links.getD [])) := by
  rw [rowsIn, saves.links, Option.getD_some]

theorem Saves.rowsOthers (saves : Saves d later parent note diff) {other : Int}
    (differs : other ≠ note.id) : later.rowsIn other = d.rowsIn other := by
  rw [saves.rows]
  exact LinkStore.onRowsOthers _ differs

theorem Saves.rooted (saves : Saves d later parent note diff) (rooted : d.Rooted) : later.Rooted where
  notes := saves.writes.notes
  links := by
    rw [saves.links]
    rfl
  parents r member := by
    by_cases mine : r.parent = note.id
    · rw [mine, saves.writes.found]
      rfl
    · have kept : r ∈ later.rowsIn r.parent := List.mem_filter.mpr ⟨member, by simp⟩
      rw [saves.rowsOthers mine] at kept
      rw [saves.writes.others _ mine]
      exact rooted.parents r (List.mem_filter.mp kept).1

end

end Database

end ModalNotes
