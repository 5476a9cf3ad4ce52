import ModalNotes.Proofs.Notebook.Load

/-! Many sessions on one storage, no two of them with one note. Opening a note again closes the session that
had it. Whatever is done at the desks, a save that is ok leaves the tables as the session has them, and
loading the note gives the session again. -/
namespace ModalNotes

namespace Storage

section
variable {s later : Storage}

theorem createdRooted (rooted : s.committed.Rooted) (created : Created s later) :
    later.committed.Rooted := by
  rcases created.committed with same | ⟨title, id, added⟩
  · exact same ▸ rooted
  · exact Database.addNoteRooted rooted added

theorem createdRows (created : Created s later) (id : Int) :
    later.committed.rowsIn id = s.committed.rowsIn id := by
  rcases created.committed with same | ⟨title, new, added⟩
  · rw [same]
  · exact Database.addNoteRows added id

theorem createdNote (created : Created s later) {id : Int}
    (known : (s.committed.noteOf id).isSome = true) :
    later.committed.noteOf id = s.committed.noteOf id := by
  rcases created.committed with same | ⟨title, new, added⟩
  · rw [same]
  · exact Database.addNoteOthers added known

theorem createdNew (created : Created s later) {id : Int} {note : NoteRow}
    (free : s.committed.noteOf id = none) (found : later.committed.noteOf id = some note) :
    s.committed.Tops id ∧ note.hasLinks = false := by
  rcases created.committed with same | ⟨title, new, added⟩
  · rw [same, free] at found
    contradiction
  · obtain ⟨-, above, -, writes⟩ := Database.addNoteWrites added
    by_cases mine : id = new
    · cases mine
      cases writes.found.symm.trans found
      exact ⟨above, rfl⟩
    · rw [writes.others id mine, free] at found
      contradiction

end

end Storage

theorem LinkRow.storedNone (id : Int) (body : Text) : Stored id body [] :=
  ⟨fun _ member => absurd member List.not_mem_nil, .nil, fun _ member => absurd member List.not_mem_nil⟩

structure Workspace where
  storage : Storage
  sessions : Nat → Option Session

namespace Workspace

inductive Act
  | create (desk : Nat) (title text : Text) (maxHistory : Int)
  | load (desk : Nat) (id maxHistory : Int)
  | work (desk : Nat) (task : Notebook.Task)
  | faults (failing : List Leg) (failure : Text)
  deriving DecidableEq, Repr

def ofStorage (storage : Storage) : Workspace := { storage, sessions := fun _ => none }

def seat (w : Workspace) (desk : Nat) (s : Session) : Workspace :=
  { w with sessions := fun other => if other = desk then some s else w.sessions other }

def leave (w : Workspace) (id : Int) : Workspace :=
  { w with sessions := fun desk => (w.sessions desk).filter fun s => s.noteId != some id }

def step (w : Workspace) : Act → Workspace
  | .create desk title text maxHistory =>
    match ((Session.fresh title text maxHistory : Run Storage Session) w.storage).result with
    | .ok s => w.seat desk s
    | .error _ => w
  | .load desk id maxHistory =>
    let o := Notebook.load maxHistory id w.storage
    let w := { w with storage := o.state }
    match o.result with
    | .ok s => (w.leave id).seat desk s
    | .error _ => w
  | .work desk task =>
    match w.sessions desk with
    | none => w
    | some s =>
      let d := (task.run ⟨s, w.storage⟩).state
      { w with storage := d.storage }.seat desk d.session
  | .faults failing failure => { w with storage := { w.storage with failing, failure } }

def after (w : Workspace) (acts : List Act) : Workspace := acts.foldl step w

structure Sound (w : Workspace) : Prop where
  tables : w.storage.committed.Sound
  held : ∀ desk s, w.sessions desk = some s → s.Held w.storage.committed
  apart : ∀ desk other s t id, w.sessions desk = some s → w.sessions other = some t →
    s.noteId = some id → t.noteId = some id → desk = other

theorem soundOfStorage {storage : Storage} (tables : storage.committed.Sound) :
    (ofStorage storage).Sound :=
  ⟨tables, fun _ _ none => by contradiction, fun _ _ _ _ _ none => by contradiction⟩

theorem soundTables {w : Workspace} (sound : w.Sound) {storage : Storage}
    (same : storage.committed = w.storage.committed) : Sound { w with storage } where
  tables := same ▸ sound.tables
  held desk s here := same ▸ sound.held desk s here
  apart := sound.apart

theorem soundLeave {w : Workspace} (sound : w.Sound) (id : Int) : (w.leave id).Sound := by
  have was : ∀ {desk s}, (w.leave id).sessions desk = some s → w.sessions desk = some s :=
    fun here => (Option.filter_eq_some_iff.mp here).1
  exact ⟨sound.tables, fun desk s here => sound.held desk s (was here),
    fun desk other s t id here there => sound.apart desk other s t id (was here) (was there)⟩

theorem seatCases {w : Workspace} {desk other : Nat} {s t : Session}
    (here : (w.seat desk s).sessions other = some t) :
    other = desk ∧ t = s ∨ other ≠ desk ∧ w.sessions other = some t := by
  simp only [seat] at here
  split at here
  · rename_i same
    exact .inl ⟨same, (Option.some.inj here).symm⟩
  · rename_i differs
    exact .inr ⟨differs, here⟩

def Sole (w : Workspace) : Prop := ∀ desk other s t id, w.sessions desk = some s →
  w.sessions other = some t → s.noteId = some id → t.noteId = some id → desk = other

theorem soleSeat {w : Workspace} (sole : w.Sole) {storage : Storage} {desk : Nat} {s : Session}
    (others : ∀ other t, other ≠ desk → w.sessions other = some t →
      ∀ id, s.noteId = some id → t.noteId ≠ some id) : ({ w with storage }.seat desk s).Sole := by
  intro left right t u id here there mine yours
  rcases seatCases here with ⟨rfl, rfl⟩ | ⟨differs, left'⟩
  · rcases seatCases there with ⟨rfl, rfl⟩ | ⟨differs', right'⟩
    · rfl
    · exact absurd yours (others right u differs' right' id mine)
  · rcases seatCases there with ⟨rfl, rfl⟩ | ⟨differs', right'⟩
    · exact absurd mine (others left t differs left' id yours)
    · exact sole left right t u id left' right' mine yours

theorem soundSeat {w : Workspace} (sound : w.Sound) {storage : Storage} {desk : Nat} {s : Session}
    (tables : storage.committed.Sound) (held : s.Held storage.committed)
    (others : ∀ other t, other ≠ desk → w.sessions other = some t →
      t.Held storage.committed ∧ ∀ id, s.noteId = some id → t.noteId ≠ some id) :
    ({ w with storage }.seat desk s).Sound where
  tables := tables
  held other t here := by
    rcases seatCases here with ⟨rfl, rfl⟩ | ⟨differs, here⟩
    · exact held
    · exact (others other t differs here).1
  apart := soleSeat sound.apart fun other t differs there => (others other t differs there).2

theorem createdTables {s later : Storage} (sound : s.committed.Sound)
    (created : Storage.Created s later) : later.committed.Sound ∧
      (∀ id, later.committed.rowsIn id = s.committed.rowsIn id) ∧
      ∀ id, (s.committed.noteOf id).isSome = true → (later.committed.noteOf id).isSome = true := by
  have rooted := Storage.createdRooted sound.rooted created
  refine ⟨⟨rooted.notes, rooted.links, rooted.parents, ?_⟩, Storage.createdRows created,
    fun id known => (Storage.createdNote created known).symm ▸ known⟩
  intro id note found
  rw [Storage.createdRows created]
  cases was : s.committed.noteOf id with
  | none =>
    rw [Database.noRows sound.rooted was]
    exact LinkRow.storedNone id note.body
  | some n =>
    have known : (s.committed.noteOf id).isSome = true := congrArg Option.isSome was
    have same := Storage.createdNote created known
    rw [was] at same
    cases same.symm.trans found
    exact sound.stored id note was

theorem savedTables {d : Desk} (rooted : d.storage.committed.Rooted) {id : Int} {db : Database}
    (given : Notebook.savedBy d = some (id, db)) :
    d.storage.committed.Saves db d.session.links.parent
      ⟨id, Text.strip d.session.title, d.session.text, !d.session.links.live.isEmpty⟩
      d.session.links.classify := by
  unfold Notebook.savedBy at given
  split at given
  · contradiction
  · exact Database.persistSaves rooted.links given

theorem soundWork {w : Workspace} (sound : w.Sound) {desk : Nat} {s : Session}
    (here : w.sessions desk = some s) (task : Notebook.Task) : (w.step (.work desk task)).Sound := by
  have held := sound.held desk s here
  have done := (Notebook.taskAfter (d := ⟨s, w.storage⟩) held.sound task).1
  have stepped : w.step (.work desk task) =
      { w with storage := (task.run ⟨s, w.storage⟩).state.storage }.seat desk
        (task.run ⟨s, w.storage⟩).state.session := by
    simp only [step, here]
  rw [stepped]
  generalize (task.run ⟨s, w.storage⟩).state = t at done
  cases done with
  | served session created =>
    obtain ⟨tables, rows, known⟩ := createdTables sound.tables created
    have noteId := Session.servedNote session.links
    have later : ∀ u : Session, u.Held w.storage.committed → u.Held t.storage.committed :=
      fun u held => Session.heldTables held (fun id _ => rows id)
        fun id saved => known id (held.known id saved)
    refine soundSeat sound tables (later _ (Session.heldServed held session)) ?_
    refine fun other u differs there => ⟨later u (sound.held other u there), fun id mine yours => ?_⟩
    exact differs (sound.apart other desk u s id there here yours (noteId ▸ mine))
  | @saved id db given session committed =>
    have saves := savedTables (d := ⟨s, w.storage⟩) sound.tables.rooted given
    have other' : ∀ other u, other ≠ desk → w.sessions other = some u → u.noteId ≠ some id := by
      intro other u differs there yours
      cases noteId : s.noteId with
      | some n =>
        cases saves.same n noteId
        exact differs (sound.apart other desk u s id there here yours noteId)
      | none =>
        have known := (sound.held other u there).known id yours
        have fresh := saves.fresh noteId
        dsimp only at fresh
        rw [fresh] at known
        contradiction
    rw [session]
    refine soundSeat sound ?_ ?_ ?_
    · exact committed ▸ Session.soundSaved sound.tables held saves
    · exact committed ▸ Session.heldSaved sound.tables held saves
    · intro other u differs there
      have unlike := other' other u differs there
      have held' := sound.held other u there
      refine ⟨committed ▸ Session.heldTables held' (fun k saved => ?_) fun k saved => ?_, ?_⟩
      · have differs' : k ≠ id := fun same => unlike (same ▸ saved)
        exact saves.rowsOthers differs'
      · have differs' : k ≠ id := fun same => unlike (same ▸ saved)
        rw [saves.writes.others k differs']
        exact held'.known k saved
      · intro k mine
        cases (Session.noteSaved (s := s) saves).symm.trans mine
        exact unlike

theorem soundLoad {w : Workspace} (sound : w.Sound) (desk : Nat) (id maxHistory : Int) :
    (w.step (.load desk id maxHistory)).Sound := by
  obtain ⟨frame, outcome⟩ := Notebook.loadAfter sound.tables maxHistory id
  have rest := soundTables sound frame.committed
  cases found : (if Database.fits id then w.storage.committed.noteOf id else none) with
  | none =>
    rw [found] at outcome
    obtain ⟨fault, failed⟩ := outcome
    simp only [step, failed]
    exact rest
  | some note =>
    rw [found] at outcome
    simp only [step, outcome]
    have known : w.storage.committed.noteOf id = some note := by
      split at found
      · exact found
      · contradiction
    refine soundSeat (soundLeave rest id) rest.tables ?_ ?_
    · exact frame.committed ▸ Session.heldReopened known
        (sound.tables.stored id note known) maxHistory
    · intro other t differs there
      obtain ⟨was, unlike⟩ := Option.filter_eq_some_iff.mp there
      refine ⟨rest.held other t was, fun k mine => ?_⟩
      cases mine
      simpa using unlike

theorem soundStep {w : Workspace} (sound : w.Sound) (act : Act) : (w.step act).Sound := by
  cases act with
  | create desk title text maxHistory =>
    refine soundSeat sound sound.tables (Session.heldFresh _ title text maxHistory) ?_
    exact fun other t _ there => ⟨sound.held other t there, fun id none => by contradiction⟩
  | load desk id maxHistory => exact soundLoad sound desk id maxHistory
  | work desk task =>
    cases here : w.sessions desk with
    | none =>
      simp only [step, here]
      exact sound
    | some s => exact soundWork sound here task
  | faults failing failure => exact soundTables sound rfl

theorem soundAfter {w : Workspace} (sound : w.Sound) (acts : List Act) : (w.after acts).Sound := by
  induction acts generalizing w with
  | nil => exact sound
  | cons act rest ih => exact ih (soundStep sound act)

structure Persisted (before later : Desk) (out : SaveOutcome) (id : Int) : Prop where
  noteId : later.session.noteId = some id
  note : (Storage.note? id).Ends later.storage fun found _ =>
    found = some ⟨id, later.session.title, later.session.text, !later.session.links.live.isEmpty⟩
  rows : (Storage.rowsOf id).Ends later.storage fun rows _ => later.session.rows = .ok rows
  report : ∃ report, out.report = some report ∧ report.Counts id before.session.links.classify
    (before.storage.committed.links.getD []) (later.storage.committed.links.getD [])
  loaded : ∀ maxHistory, (Notebook.load maxHistory id).Ends later.storage fun t _ =>
    t.noteId = some id ∧ t.title = later.session.title ∧ t.text = later.session.text ∧
      t.rows = later.session.rows ∧ t.Clean

theorem savedPersisted {d : Desk} {id : Int} {db : Database} (tables : d.storage.committed.Sound)
    (held : d.session.Held d.storage.committed) (given : Notebook.savedBy d = some (id, db))
    {w : Storage} (committed : w.committed = db) :
    Persisted d ⟨Notebook.savedSession d.session id, w⟩ (Notebook.savedOutcome d.session id) id := by
  have saves := savedTables tables.rooted given
  have synced := Session.syncedSaved tables held saves
  have tables' : w.committed.Sound := committed ▸ Session.soundSaved tables held saves
  have found : w.committed.noteOf id = some _ := committed ▸ saves.writes.found
  have live : (Notebook.savedSession d.session id).links.live =
      d.session.links.live.map (Link.written id) :=
    LinkStore.writtenLive (Session.linksSaved held.tidy saves) fun l member =>
      (LinkStore.liveIff.mp member).2
  have rows : (Notebook.savedSession d.session id).rows =
      .ok (LinkRow.byAnchor (w.committed.rowsIn id)) := by
    rw [committed, saves.rows, LinkStore.onRowsSorted held.ordered synced,
      Session.rows, LinkStore.rows, live, LinkStore.writtenRows]
  refine ⟨Session.noteSaved saves, ?_, ?_, ⟨_, rfl, ?_⟩, fun maxHistory => ?_⟩
  · refine Run.endsMono (Notebook.noteEnds tables'.rooted saves.fits) ?_
    intro _ t post
    obtain ⟨rfl, -⟩ := post
    rw [found, live, List.isEmpty_map]
    rfl
  · refine Run.endsMono (Notebook.rowsEnds tables'.rooted saves.fits) ?_
    intro _ t post
    obtain ⟨rfl, -⟩ := post
    exact rows
  · have after' : w.committed.links.getD [] =
        d.session.links.classify.onRows id (d.storage.committed.links.getD []) := by
      rw [committed, saves.links, Option.getD_some]
    rw [after']
    exact LinkStore.countsReport held.ordered synced
  · refine Run.endsMono (Notebook.loadEnds tables' saves.fits found maxHistory) ?_
    intro _ t post
    obtain ⟨rfl, -⟩ := post
    have stored := LinkRow.storedSorted (tables'.stored id _ found)
    exact ⟨rfl, rfl, Text.unlines_lines _, (Session.rowsReopened _ _ _ _).trans rows.symm,
      Session.cleanReopened stored _ _⟩

/- Any run at the desks, from any sound tables: when a save is ok, the tables have the session. -/
theorem savePersists {storage : Storage} (tables : storage.committed.Sound) (acts : List Act)
    {desk : Nat} {s : Session} (here : ((ofStorage storage).after acts).sessions desk = some s) :
    Notebook.save.Ends ⟨s, ((ofStorage storage).after acts).storage⟩ fun out later =>
      out.ok = true → ∃ id,
        Persisted ⟨s, ((ofStorage storage).after acts).storage⟩ later out id := by
  have sound := soundAfter (soundOfStorage tables) acts
  have held := sound.held desk s here
  generalize (ofStorage storage).after acts = w at sound held
  refine Run.endsMono (Notebook.saveEnds (d := ⟨s, w.storage⟩) held.sound.owned) ?_
  intro out later post ok
  obtain ⟨-, -, outcome⟩ := post
  cases given : Notebook.savedBy ⟨s, w.storage⟩ with
  | none =>
    rw [given] at outcome
    rw [outcome.1] at ok
    contradiction
  | some r =>
    obtain ⟨id, db⟩ := r
    rw [given] at outcome
    obtain ⟨rfl, session, committed⟩ := outcome
    obtain ⟨session', w'⟩ := later
    cases session
    exact ⟨id, savedPersisted sound.tables held given committed⟩

def leading : Storage where
  committed := {
    notes := some [⟨1, ['a'], ['x'], true⟩, ⟨2, ['b'], [], false⟩]
    links := some [⟨1, 1, 0, 0, 1, 2⟩] }

theorem leadingNotes {id : Int} {n : NoteRow} (found : leading.committed.noteOf id = some n) :
    id = 1 ∧ n = ⟨1, ['a'], ['x'], true⟩ ∨ id = 2 ∧ n = ⟨2, ['b'], [], false⟩ := by
  have own : n.id = id := Database.noteOfId found
  rcases List.mem_pair.mp (List.mem_of_find?_eq_some found) with rfl | rfl
  · exact .inl ⟨own.symm, rfl⟩
  · exact .inr ⟨own.symm, rfl⟩

theorem leadingSound : leading.committed.Sound where
  notes := rfl
  links := rfl
  parents := by decide
  stored id n found := by
    rcases leadingNotes found with ⟨rfl, rfl⟩ | ⟨rfl, rfl⟩
    · decide
    · exact LinkRow.storedNone 2 []

/- A letter typed in front moves the stored link, and is drawn as the anchor of another one. -/
def drawingBeside : List Act := [
  .load 0 1 100, .work 0 (.input (.key ['i'] [])), .work 0 (.input (.key ['y'] [])),
  .work 0 (.input (.key "escape".toList [])), .work 0 (.input (.key ['h'] [])),
  .work 0 (.input (.key ['v'] [])), .work 0 (.input (.key ['l'] ["ctrl".toList])), .work 0 (.link ['b'])]

theorem linkedNotePersists : leading.committed.Sound ∧
    ∃ s, ((ofStorage leading).after drawingBeside).sessions 0 = some s ∧
      Notebook.save.Ends ⟨s, ((ofStorage leading).after drawingBeside).storage⟩ fun out later =>
        out.ok = true ∧ out.report = some { updated := 1, inserted := 1 } ∧
          later.storage.committed.rowsIn 1 = [⟨1, 1, 0, 1, 2, 2⟩, ⟨1, 2, 0, 0, 1, 2⟩] ∧
          ∃ id, Persisted ⟨s, ((ofStorage leading).after drawingBeside).storage⟩ later out id := by
  have saved : (((ofStorage leading).after drawingBeside).sessions 0).map (fun s =>
      let o := Notebook.save ⟨s, ((ofStorage leading).after drawingBeside).storage⟩
      (o.result.toOption.map fun out => (out.ok, out.report), o.state.storage.committed.rowsIn 1)) =
        some (some (true, some { updated := 1, inserted := 1 }),
          [⟨1, 1, 0, 1, 2, 2⟩, ⟨1, 2, 0, 0, 1, 2⟩]) := by decide +kernel
  obtain ⟨s, here, told⟩ := Option.map_eq_some_iff.mp saved
  obtain ⟨out, result, persisted⟩ := savePersists leadingSound drawingBeside here
  dsimp only at told
  rw [result] at told
  obtain ⟨outcome, rows⟩ := Prod.mk.inj told
  obtain ⟨ok, report⟩ := Prod.mk.inj (Option.some.inj outcome)
  exact ⟨leadingSound, s, here, out, result, ok, report, rows, persisted ok⟩

end Workspace

end ModalNotes
