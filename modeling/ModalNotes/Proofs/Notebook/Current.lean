import Mathlib.Data.List.DropRight
import ModalNotes.Proofs.Notebook.Workspace
import ModalNotes.Proofs.Session.Age

/-! A session between two saves, against the tables. As long as its text is as it was saved, the tables have
that text, and the saved links where they are. Whether the title and the other links are there too does not
show in the version. -/
namespace ModalNotes

theorem Text.stripStrip (s : Text) : strip (strip s) = strip s := by
  -- What is left of a text without blanks in front has none in front.
  have left : stripLeft (strip s) = strip s := by
    refine List.dropWhile_eq_self_iff.mpr fun some' => ?_
    have front : strip s <+: stripLeft s := List.rdropWhile_prefix isBlank _
    rw [front.getElem some']
    exact List.dropWhile_get_zero_not isBlank s (Nat.lt_of_lt_of_le some' front.length_le)
  rw [strip, left]
  exact List.rdropWhile_idempotent isBlank (stripLeft s)

namespace LinkStore

variable {id : Int} {rows : List LinkRow} {links : List Link}

theorem savedSorted (ordered : Ordered links) (synced : Synced rows links)
    (own : ∀ r ∈ rows, r.parent = id) (unmoved : ∀ l ∈ links, l.saved = true → l.updated = false) :
    LinkRow.byAnchor rows = (links.filter (·.saved)).map (Link.rowOf id) := by
  have rowIs : ∀ r ∈ rows, ∃ l ∈ links, l.saved = true ∧ l.rowOf id = r := by
    intro r member
    obtain ⟨l, inside, anchor, saved, linked, span⟩ := synced.row r member
    have geometry := span (unmoved l inside saved)
    simp only [Link.geometry, LinkRow.geometry, Prod.mk.injEq] at geometry
    obtain ⟨row, start, stop⟩ := geometry
    refine ⟨l, inside, saved, ?_⟩
    rw [Link.rowOf, anchor, linked, row, start, stop, ← own r member]
  have ascends : ((links.filter (·.saved)).map (Link.rowOf id)).Pairwise fun r r' =>
      r.anchor < r'.anchor := List.pairwise_map.mpr (ordered.part _).ascending
  refine LinkRow.ascendingUnique (LinkRow.byAnchorAscends synced.distinct) ascends
    ((LinkRow.byAnchorPerm rows).trans ?_)
  have differ : ((links.filter (·.saved)).map (Link.rowOf id)).Nodup := by
    refine ascends.imp fun below same => ?_
    rw [same] at below
    exact Int.lt_irrefl _ below
  refine (List.perm_ext_iff_of_nodup (List.Nodup.of_map _ synced.distinct) differ).mpr fun r => ?_
  constructor
  · intro member
    obtain ⟨l, inside, saved, same⟩ := rowIs r member
    exact List.mem_map.mpr ⟨l, List.mem_filter.mpr ⟨inside, saved⟩, same⟩
  · intro member
    obtain ⟨l, marked, rfl⟩ := List.mem_map.mp member
    obtain ⟨inside, saved⟩ := List.mem_filter.mp marked
    obtain ⟨r, stored, anchor⟩ := List.mem_map.mp (synced.saved l inside saved)
    obtain ⟨m, inside', -, rfl⟩ := rowIs r stored
    cases ordered.same inside' inside anchor
    exact stored

theorem boundRows (bound : ∀ l ∈ links, l.parent = some id) :
    links.mapM Link.toRow = .ok (links.map (Link.rowOf id)) := by
  induction links with
  | nil => rfl
  | cons l rest ih =>
    rw [List.mapM_cons, ih fun m member => bound m (List.mem_cons_of_mem l member), Link.toRow,
      bound l List.mem_cons_self]
    rfl

theorem rowsAlike (p : Link → Bool) :
    (links.filter p).map (Link.rowOf id) = links.map (Link.rowOf id) ↔ ∀ l ∈ links, p l = true := by
  constructor
  · intro same
    have lengths := congrArg List.length same
    rw [List.length_map, List.length_map] at lengths
    exact List.filter_eq_self.mp (List.filter_sublist.eq_of_length lengths)
  · intro all
    rw [List.filter_eq_self.mpr all]

end LinkStore

def Link.mark (l : Link) : Int × (Int × Int × Int) × Int := (l.anchor, l.geometry, l.linked)

namespace Session

def marks (s : Session) : List (Int × (Int × Int × Int) × Int) := s.links.live.map Link.mark

structure Current (d : Database) (s : Session) : Prop where
  held : Held d s
  narrow : ∀ id, s.noteId = some id → Database.fits id = true
  older : s.savedVersion ≤ s.buffer.version
  stored : s.isDirty = false → ∀ id, s.noteId = some id →
    ∃ note, d.noteOf id = some note ∧ note.body = s.text
  unmoved : s.isDirty = false → ∀ l ∈ s.links.all, l.saved = true → l.updated = false ∧ l.deleted = false

theorem cleanIff {s : Session} : s.isDirty = false ↔ s.buffer.version = s.savedVersion := by
  simp [isDirty]

theorem currentFresh (d : Database) (title text : Text) (maxHistory : Int) :
    Current d (ofBuffer Keymap.standard.state (Buffer.ofText text maxHistory) title {}) where
  held := heldFresh d title text maxHistory
  narrow _ none := by contradiction
  older := Nat.le_refl _
  stored _ _ none := by contradiction
  unmoved _ _ member := absurd member List.not_mem_nil

theorem currentReopened {d : Database} (sound : d.Sound) {note : NoteRow} {id : Int}
    (narrow : Database.fits id = true) (found : d.noteOf id = some note) (maxHistory : Int) :
    Current d (reopened id note.title note.body (LinkRow.byAnchor (d.rowsIn id)) maxHistory) where
  held := heldReopened found (sound.stored id note found) maxHistory
  narrow _ same := by
    cases same
    exact narrow
  older := Nat.le_refl _
  stored _ _ same := by
    cases same
    exact ⟨note, found, (Text.unlines_lines _).symm⟩
  unmoved _ l member _ := by
    have stored := LinkRow.storedSorted (sound.stored id note found)
    obtain ⟨-, updated, deleted, -⟩ := cleanReopened stored note.title maxHistory l member
    exact ⟨updated, deleted⟩

theorem currentTables {d d' : Database} {s : Session} (current : Current d s)
    (rows : ∀ id, s.noteId = some id → d'.rowsIn id = d.rowsIn id)
    (notes : ∀ id, s.noteId = some id → d'.noteOf id = d.noteOf id) : Current d' s where
  held := heldTables current.held rows fun id bound => by
    rw [notes id bound]
    exact current.held.known id bound
  narrow := current.narrow
  older := current.older
  stored clean id bound := by
    rw [notes id bound]
    exact current.stored clean id bound
  unmoved := current.unmoved

theorem currentAges {d : Database} {s later : Session} (current : Current d s) (served : Served s later)
    (ages : Ages s later) : Current d later := by
  have noteId := servedNote served.links
  have still : later.isDirty = false → s.isDirty = false ∧ later.buffer.version = s.buffer.version := by
    intro clean
    have low := current.older
    have high := ages.version
    have same := cleanIff.mp clean
    rw [ages.saved] at same
    exact ⟨cleanIff.mpr (by omega), by omega⟩
  refine ⟨heldServed current.held served, noteId ▸ current.narrow, ?_, ?_, ?_⟩
  · exact ages.saved ▸ Nat.le_trans current.older ages.version
  · intro clean id bound
    obtain ⟨clean', same⟩ := still clean
    rw [(ages.still same).1]
    exact current.stored clean' id (noteId ▸ bound)
  · intro clean l member marked
    obtain ⟨clean', same⟩ := still clean
    exact current.unmoved clean' l ((ages.still same).2 l member marked) marked

theorem currentSaved {d later : Database} {s : Session} {id : Int} {title : Text} {hasLinks : Bool}
    (sound : d.Sound) (held : Held d s)
    (saves : d.Saves later s.links.parent ⟨id, title, s.text, hasLinks⟩ s.links.classify) :
    Current later (Notebook.savedSession s id) where
  held := heldSaved sound held saves
  narrow n bound := by
    cases (noteSaved saves).symm.trans bound
    exact saves.fits
  older := Nat.le_refl _
  stored _ n bound := by
    cases (noteSaved saves).symm.trans bound
    exact ⟨_, saves.writes.found, rfl⟩
  unmoved _ l member _ := by
    rw [linksSaved held.tidy saves] at member
    obtain ⟨m, live, rfl⟩ := List.mem_map.mp member
    exact ⟨rfl, (LinkStore.liveIff.mp live).2⟩

theorem savedRows {d : Database} {s : Session} (current : Current d s) (clean : s.isDirty = false) {id : Int}
    (bound : s.noteId = some id) :
    LinkRow.byAnchor (d.rowsIn id) = (s.links.live.filter (·.saved)).map (Link.rowOf id) := by
  have synced := current.held.synced
  rw [rowsIn, bound] at synced
  have unmoved := current.unmoved clean
  rw [LinkStore.savedSorted current.held.ordered synced (fun r member => LinkRow.ofNoteParent member)
    fun l member saved => (unmoved l member saved).1, LinkStore.live, List.filter_filter]
  congr 1
  refine List.filter_congr fun l member => ?_
  cases saved : l.saved with
  | false => rfl
  | true => simp [(unmoved l member saved).2]

theorem liveRows {s : Session} (sound : s.Sound) {id : Int} (bound : s.noteId = some id) :
    s.rows = .ok (s.links.live.map (Link.rowOf id)) := by
  refine LinkStore.boundRows fun l member => ?_
  obtain ⟨⟨k, _⟩, entry, rfl⟩ := List.mem_map.mp (LinkStore.liveIff.mp member).1
  exact (sound.owned k _ entry).trans bound

theorem rowsMarks {s t : Session} (sound : s.Sound) (sound' : t.Sound) {id : Int}
    (bound : s.noteId = some id) (bound' : t.noteId = some id) : t.rows = s.rows ↔ t.marks = s.marks := by
  let row (m : Int × (Int × Int × Int) × Int) : LinkRow := ⟨id, m.1, m.2.1.1, m.2.1.2.1, m.2.1.2.2, m.2.2⟩
  have distinct : Function.Injective row := by
    rintro ⟨anchor, ⟨line, start, stop⟩, linked⟩ ⟨anchor', ⟨line', start', stop'⟩, linked'⟩ same
    simpa [row, and_assoc] using same
  have rows : ∀ links : List Link, links.map (Link.rowOf id) = (links.map Link.mark).map row := by
    intro links
    rw [List.map_map]
    rfl
  rw [liveRows sound' bound', liveRows sound bound, Except.ok.injEq, rows, rows]
  exact (List.map_injective_iff.mpr distinct).eq_iff

/- The tables have all that the version of the text does not tell: the title, up to blanks around it, and
a row for each link. -/
def Settled (d : Database) (s : Session) : Prop :=
  (∀ l ∈ s.links.live, l.saved = true) ∧ ∀ id, s.noteId = some id →
    (d.noteOf id).map (fun note => Text.strip note.title) = some (Text.strip s.title)

theorem recallEnds {w : Storage} {s : Session} (tables : w.committed.Sound)
    (current : s.Current w.committed) (clean : s.isDirty = false) {id : Int}
    (bound : s.noteId = some id) (maxHistory : Int) :
    (Notebook.load maxHistory id).Ends w fun t _ => t.noteId = some id ∧ t.text = s.text ∧
      (Text.strip t.title = Text.strip s.title ∧ t.marks = s.marks ↔ s.Settled w.committed) := by
  obtain ⟨note, found, body⟩ := current.stored clean id bound
  refine Run.endsMono (Notebook.loadEnds tables (current.narrow id bound) found maxHistory) ?_
  rintro t _ ⟨rfl, -⟩
  refine ⟨rfl, (Text.unlines_lines _).trans body, ?_⟩
  have sound := (heldReopened found (tables.stored id _ found) maxHistory).sound
  have links : (s.links.live.filter (·.saved)).map (Link.rowOf id) = s.links.live.map (Link.rowOf id) ↔
      ∀ l ∈ s.links.live, l.saved = true := LinkStore.rowsAlike _
  rw [← Except.ok.injEq, ← savedRows current clean bound, ← liveRows current.held.sound bound,
    ← rowsReopened note.title note.body _ maxHistory, rowsMarks current.held.sound sound bound rfl] at links
  rw [links, Settled, and_comm]
  refine and_congr_right fun _ => ?_
  constructor
  · intro same n bound'
    cases bound.symm.trans bound'
    rw [found]
    exact congrArg some same
  · intro known
    have same := known id bound
    rw [found] at same
    exact Option.some.inj same

theorem savedSettled {d later : Database} {s : Session} {id : Int} {hasLinks : Bool} (held : Held d s)
    (saves : d.Saves later s.links.parent ⟨id, Text.strip s.title, s.text, hasLinks⟩ s.links.classify) :
    (Notebook.savedSession s id).Settled later := by
  constructor
  · intro l member
    have inside := (LinkStore.liveIff.mp member).1
    rw [linksSaved held.tidy saves] at inside
    obtain ⟨m, -, rfl⟩ := List.mem_map.mp inside
    rfl
  · intro n bound
    cases (noteSaved saves).symm.trans bound
    rw [saves.writes.found]
    rfl

theorem savedMarks {d later : Database} {s : Session} {id : Int} {title : Text} {hasLinks : Bool}
    (held : Held d s)
    (saves : d.Saves later s.links.parent ⟨id, title, s.text, hasLinks⟩ s.links.classify) :
    (Notebook.savedSession s id).marks = s.marks := by
  have live := LinkStore.writtenLive (linksSaved held.tidy saves) fun l member => (LinkStore.liveIff.mp member).2
  rw [marks, live, List.map_map]
  rfl

end Session

namespace Notebook

open Session

theorem saveSession {d : Desk} (owned : d.session.links.Owned) (failed : savedBy d = none) :
    (Task.save.run d).state.session = d.session := by
  obtain ⟨out, -, -, -, outcome⟩ := saveEnds owned
  rw [failed] at outcome
  exact (congrArg Desk.session (Run.ignoredState save d)).trans outcome.2.2.1

theorem taskAges {d : Desk} (sound : d.session.Sound) (task : Task)
    (unsaved : task = .save → savedBy d = none) : Ages d.session (task.run d).state.session := by
  cases task with
  | input i => exact inputAges sound i
  | rename title => exact agesStill rfl rfl fun _ member _ => member
  | link title =>
    have run : ((Task.link title).run d).state = (linkTo title d).state := Run.ignoredState _ d
    rw [run]
    rcases (linkToRuns title d).2 with ⟨same, -⟩ | ⟨target, attached, -⟩
    · exact same ▸ agesRefl _
    · exact attached ▸ attachAges sound target
  | save => exact saveSession sound.owned (unsaved rfl) ▸ agesRefl _

theorem taskOutcome {d : Desk} (sound : d.session.Sound) (task : Task) :
    (Served d.session (task.run d).state.session ∧ Ages d.session (task.run d).state.session ∧
      Storage.Created d.storage (task.run d).state.storage) ∨
    ∃ id db, savedBy d = some (id, db) ∧ (task.run d).state.session = savedSession d.session id ∧
      (task.run d).state.storage.committed = db := by
  have done := (taskAfter sound task).1
  cases given : savedBy d with
  | none =>
    cases done with
    | saved given' => cases given.symm.trans given'
    | served served created => exact .inl ⟨served, taskAges sound task fun _ => given, created⟩
  | some r =>
    obtain ⟨id, db⟩ := r
    by_cases saving : task = .save
    · obtain ⟨out, -, -, -, outcome⟩ := saveEnds sound.owned
      rw [given] at outcome
      have run : (task.run d).state = (save d).state := saving ▸ Run.ignoredState save d
      exact .inr ⟨id, db, rfl, run ▸ outcome.2⟩
    · cases done with
      | @saved id' db' given' session storage =>
        exact .inr ⟨id', db', given.symm.trans given', session, storage⟩
      | served served created =>
        exact .inl ⟨served, taskAges sound task fun save => absurd save saving, created⟩

theorem taskCurrent {d : Desk} (tables : d.storage.committed.Sound)
    (current : d.session.Current d.storage.committed) (task : Task) :
    (task.run d).state.storage.committed.Sound ∧
      (task.run d).state.session.Current (task.run d).state.storage.committed := by
  rcases taskOutcome current.held.sound task with ⟨served, ages, created⟩ | ⟨id, db, given, session, committed⟩
  · obtain ⟨tables', rows, -⟩ := Workspace.createdTables tables created
    refine ⟨tables', currentTables (currentAges current served ages) (fun id _ => rows id) fun id bound => ?_⟩
    rw [servedNote served.links] at bound
    exact Storage.createdNote created (current.held.known id bound)
  · have saves := Workspace.savedTables tables.rooted given
    rw [session, committed]
    exact ⟨soundSaved tables current.held saves, currentSaved tables current.held saves⟩

end Notebook

end ModalNotes
