import ModalNotes.Proofs.Session.Input
import ModalNotes.Proofs.Storage.Request
import ModalNotes.Proofs.Storage.Save
import ModalNotes.Proofs.Storage.Tables

/-! An open session among its notes: inputs, new titles, links to notes by their title, and saves, each at
whatever storage is there. Links mirror their anchors after every step, and what was deleted stays so. -/
namespace ModalNotes

def Database.Targets (d later : Database) (title : Text) (id : Int) : Prop :=
  d.idOfTitle? title = .ok (some id) ∧ later = d ∨
    d.idOfTitle? title = .ok none ∧ d.addNote title [] false = .ok (later, id)

namespace Notebook

open Session

theorem savedSound {s : Session} (sound : s.Sound) (id : Int) : (savedSession s id).Sound where
  editor := sound.editor
  taken := sound.taken
  mirrors := LinkStore.mirrorsSettle (LinkStore.mirrorsBound sound.mirrors id) _
  owned := LinkStore.settleOwned (LinkStore.boundOwned sound.owned id) _
  pending other waiting := by
    obtain ⟨inside, above⟩ := sound.pending other waiting
    refine ⟨inside, fun k member => above k ?_⟩
    exact LinkStore.boundKeys s.links id ▸ LinkStore.settleKeys member

theorem linkToRuns (title : Text) (d : Desk) :
    (linkTo title).After d fun r t => Storage.Created d.storage t.storage ∧
      (t.session = d.session ∧ (∀ fault, r = .error fault → fault.ofLinks = false) ∧
          t.storage.committed = d.storage.committed ∧ (∀ link, r = .ok link → link = none) ∨
        ∃ target, t.session = (attachLink target d.session).state ∧
          r = (attachLink target d.session).result ∧ d.session.pendingAnchor ≠ none ∧ Text.strip title ≠ [] ∧
          d.storage.committed.Targets t.storage.committed (Text.strip title) target) := by
  have untouched : Storage.Created d.storage d.storage := ⟨rfl, rfl, .inl rfl⟩
  unfold linkTo
  refine Run.afterBindEnds (Run.endsGet.mpr ?_)
  split
  · refine ⟨untouched, .inl ⟨rfl, Run.noFault, rfl, fun link done => ?_⟩⟩
    cases done
    rfl
  rename_i waiting
  have waits : d.session.pendingAnchor ≠ none := by simpa using waiting
  dsimp only
  split
  · refine ⟨untouched, .inl ⟨rfl, fun fault failed => ?_, rfl, fun link done => nomatch done⟩⟩
    cases failed
    rfl
  rename_i titled
  have some' : Text.strip title ≠ [] := by simpa using titled
  rw [Run.afterBind, Desk.onStorage, Run.afterOn]
  refine Run.afterMono (Storage.queryAfter (f := (·.idOfTitle? (Text.strip title)))
    (fun missing => Database.notesNeeded (Storage.noteNeeds rfl missing) _)
    (Storage.refusesTitle _)) ?_
  intro r w post
  obtain ⟨frame, sent, faults⟩ := post
  have found : Storage.Created d.storage w := ⟨frame.failing, frame.failure, .inl frame.committed⟩
  cases r with
  | error fault =>
    refine ⟨found, .inl ⟨rfl, fun fault' failed => ?_, frame.committed, fun link done => nomatch done⟩⟩
    cases failed
    exact faults fault rfl
  | ok id =>
    have known := (Database.sentSome sent.symm).2
    cases id with
    | some id =>
      exact Run.afterBindEnds (Run.endsPure.mpr
        ⟨found, .inr ⟨id, rfl, rfl, waits, some', .inl ⟨known, frame.committed⟩⟩⟩)
    | none =>
      dsimp only
      rw [Run.afterBind, Desk.onStorage, Run.afterOn]
      refine Run.afterMono (Storage.createAfter w (Text.strip title)) ?_
      intro r v post
      obtain ⟨failing, failure, fails, adds⟩ := post
      rw [frame.committed] at fails adds
      cases r with
      | error fault =>
        obtain ⟨outside, same⟩ := fails fault rfl
        refine ⟨⟨failing.trans frame.failing, failure.trans frame.failure, .inl same⟩,
          .inl ⟨rfl, fun fault' failed => ?_, same, fun link done => nomatch done⟩⟩
        cases failed
        exact outside
      | ok id =>
        exact ⟨⟨failing.trans frame.failing, failure.trans frame.failure, .inr ⟨_, id, adds id rfl⟩⟩,
          .inr ⟨id, rfl, rfl, waits, some', .inr ⟨known, adds id rfl⟩⟩⟩

theorem linkToAfter {d : Desk} (sound : d.session.Sound) (title : Text) :
    (linkTo title).After d fun r t => Served d.session t.session ∧
      Storage.Created d.storage t.storage ∧ ∀ fault, r = .error fault → fault.ofLinks = false := by
  refine Run.afterMono (linkToRuns title d) ?_
  intro r t post
  obtain ⟨created, ⟨same, faults, -⟩ | ⟨target, attached, result, -⟩⟩ := post
  · rw [same]
    exact ⟨⟨sound, extendsRefl _, .inl (.inl rfl)⟩, created, faults⟩
  · obtain ⟨link, ok, served⟩ := attachServed sound target
    rw [attached, result, ok]
    exact ⟨served, created, Run.noFault⟩

inductive Task
  | input (i : Input)
  | rename (title : Text)
  | link (title : Text)
  | save
  deriving DecidableEq, Repr

def Task.run : Task → Run Desk Unit
  | input i => Desk.onSession i.run
  | rename title => Desk.onSession (Run.modify fun s => { s with title })
  | link title => do let _ ← linkTo title
  | save => do let _ ← Notebook.save

inductive Done (d t : Desk) : Prop
  | served (session : Served d.session t.session) (storage : Storage.Created d.storage t.storage)
  | saved {id : Int} {db : Database} (given : savedBy d = some (id, db))
      (session : t.session = savedSession d.session id) (storage : t.storage.committed = db)

theorem renamedServed {s : Session} (sound : s.Sound) (title : Text) : Served s { s with title } where
  sound := ⟨sound.editor, sound.taken, sound.mirrors, sound.owned, sound.pending⟩
  anchors := extendsOfAnchors rfl (.inl rfl)
  links := .inl (.inl rfl)

theorem createdRefl (w : Storage) : Storage.Created w w := ⟨rfl, rfl, .inl rfl⟩

theorem taskAfter {d : Desk} (sound : d.session.Sound) (task : Task) :
    task.run.After d fun r t => Done d t ∧ ∀ fault, r = .error fault → fault.ofLinks = false := by
  cases task with
  | input i =>
    change (Desk.onSession i.run).After d _
    rw [Desk.onSession, Run.afterOn]
    refine Run.afterMono (inputEnding sound i) ?_
    intro r later ending
    refine ⟨.served ending.served (createdRefl _), fun fault failed => ?_⟩
    rcases ending.cause fault failed with ⟨token, rfl⟩ | rfl <;> rfl
  | rename title =>
    exact ⟨.served (renamedServed sound title) (createdRefl _), Run.noFault⟩
  | link title =>
    unfold Task.run
    rw [Run.afterBind]
    refine Run.afterMono (linkToAfter sound title) ?_
    intro r t post
    obtain ⟨served, created, faults⟩ := post
    cases r with
    | ok link => exact ⟨.served served created, Run.noFault⟩
    | error fault =>
      refine ⟨.served served created, fun fault' failed => ?_⟩
      cases failed
      exact faults fault rfl
  | save =>
    unfold Task.run
    refine Run.afterBindEnds (Run.endsMono (saveEnds sound.owned) ?_)
    intro out t post
    obtain ⟨failing, failure, outcome⟩ := post
    rw [Run.afterPure]
    refine ⟨?_, Run.noFault⟩
    cases given : savedBy d with
    | none =>
      rw [given] at outcome
      obtain ⟨-, -, session, committed⟩ := outcome
      refine .served ?_ ⟨failing, failure, .inl committed⟩
      rw [session]
      exact ⟨sound, extendsRefl _, .inl (.inl rfl)⟩
    | some r =>
      obtain ⟨id, db⟩ := r
      rw [given] at outcome
      obtain ⟨-, session, committed⟩ := outcome
      exact .saved given session committed

theorem doneSound {d t : Desk} (sound : d.session.Sound) (done : Done d t) :
    t.session.Sound ∧ Extends d.session t.session := by
  cases done with
  | served session storage => exact ⟨session.sound, session.anchors⟩
  | saved given session storage =>
    rw [session]
    exact ⟨savedSound sound _, extendsOfAnchors rfl (.inl rfl)⟩

end Notebook

namespace Session

structure Step where
  task : Notebook.Task
  storage : Storage
  deriving DecidableEq, Repr

def Step.run (step : Step) : Run Session Unit :=
  Run.on (fun session => { session, storage := step.storage }) (fun d _ => d.session) step.task.run

def along (s : Session) (steps : List Step) : Session :=
  steps.foldl (fun s step => (step.run s).state) s

def lettered : Session := ofBuffer Keymap.tables (Buffer.ofText ['a', 'b'] 100) [] {}

theorem letteredOpened : Opened lettered :=
  .fresh [] ['a', 'b'] 100 (by rw [lettered, ← Keymap.standardTables]; rfl)

def drawing : List Step := [⟨.input (.key ['v'] []), {}⟩, ⟨.input (.key ['l'] ["ctrl".toList]), {}⟩]

theorem stepAfter {s : Session} (sound : s.Sound) (step : Step) :
    step.run.After s fun r later => later.Sound ∧ Extends s later ∧
      ∀ fault, r = .error fault → fault.ofLinks = false := by
  rw [Step.run, Run.afterOn]
  refine Run.afterMono (Notebook.taskAfter (d := ⟨s, step.storage⟩) sound step.task) ?_
  intro r d post
  obtain ⟨done, faults⟩ := post
  obtain ⟨sound', extended⟩ := Notebook.doneSound (d := ⟨s, step.storage⟩) sound done
  exact ⟨sound', extended, faults⟩

theorem alongSound {s : Session} (sound : s.Sound) (steps : List Step) : (s.along steps).Sound := by
  induction steps generalizing s with
  | nil => exact sound
  | cons step rest ih => exact ih (stepAfter sound step).1

/- The anchors that do not wait, from one session to a later one: they are there, they do not wait, and
the deleted ones are deleted. -/
def Lasting (s later : Session) : Prop :=
  ∀ id a, s.buffer.anchors.get? id = some a → s.pendingAnchor ≠ some id →
    ∃ a', later.buffer.anchors.get? id = some a' ∧ later.pendingAnchor ≠ some id ∧
      (a.deleted = true → a'.deleted = true)

theorem alongLasting {s : Session} (sound : s.Sound) (steps : List Step) :
    Lasting s (s.along steps) := by
  induction steps generalizing s with
  | nil => exact fun id a found other => ⟨a, found, other, fun gone => gone⟩
  | cons step rest ih =>
    obtain ⟨sound', extended, -⟩ := stepAfter sound step
    intro id a found other
    obtain ⟨a', found', gone⟩ := extended.kept id a found other
    have other' := extended.waiting id (Table.memOfSome found) other
    obtain ⟨a'', found'', other'', gone'⟩ := ih sound' id a' found' other'
    exact ⟨a'', found'', other'', fun deleted => gone' (gone deleted)⟩

theorem linkedNotWaiting {s : Session} (sound : s.Sound) {id : Int} (linked : id ∈ s.links.links.keys) :
    s.pendingAnchor ≠ some id :=
  fun waiting => Int.lt_irrefl id ((sound.pending id waiting).2 id linked)

theorem linkedLasts {s later : Session} (sound : s.Sound) (lasting : Lasting s later) {id : Int}
    (linked : id ∈ s.links.links.keys) :
    id ∈ later.buffer.anchors.keys ∧ later.pendingAnchor ≠ some id := by
  obtain ⟨a, found⟩ := Table.someOfMem (LinkStore.mirrorsKeys sound.mirrors linked)
  obtain ⟨a', found', other, -⟩ := lasting id a found (linkedNotWaiting sound linked)
  exact ⟨Table.memOfSome found', other⟩

theorem deletedLasts {s later : Session} (sound : s.Sound) (sound' : later.Sound)
    (lasting : Lasting s later) {id : Int} {l l' : Link} (found : s.links.links.get? id = some l)
    (found' : later.links.links.get? id = some l') (gone : l.deleted = true) : l'.deleted = true := by
  obtain ⟨a, anchor, same, -⟩ := sound.mirrors.present id l (Table.memOfGet found)
  obtain ⟨a', anchor', same', -⟩ := sound'.mirrors.present id l' (Table.memOfGet found')
  obtain ⟨a'', later', -, kept⟩ := lasting id a anchor (linkedNotWaiting sound (Table.memOfSome found))
  cases anchor'.symm.trans later'
  exact same'.trans (kept (same ▸ gone))

structure Mirrored (earlier s : Session) : Prop where
  mirrors : Mirrors s.links.links s.buffer.anchors
  linked : ∀ id ∈ earlier.links.links.keys, id ∈ s.buffer.anchors.keys ∧
    s.pendingAnchor ≠ some id ∧ s.buffer.anchors.nextId ≠ id
  anchors : Lasting earlier s
  links : ∀ id l l', earlier.links.links.get? id = some l → s.links.links.get? id = some l' →
    l.deleted = true → l'.deleted = true
  next : ∀ step : Step, Extends s (step.run s).state ∧
    ∀ fault, (step.run s).result = .error fault → fault.ofLinks = false

/- From any point of any run to any later one. New anchors come under the next free id only, so an id that
has had a link never goes to another anchor. -/
theorem linksMirrorAnchors {s : Session} (opened : Opened s) (before behind : List Step) :
    Mirrored (s.along before) ((s.along before).along behind) := by
  have sound := alongSound (openedSound opened) before
  have sound' := alongSound sound behind
  have lasting := alongLasting sound behind
  refine ⟨sound'.mirrors, fun id linked => ?_, lasting, fun id l l' => deletedLasts sound sound' lasting,
    fun step => (stepAfter sound' step).2⟩
  obtain ⟨inside, other⟩ := linkedLasts sound lasting linked
  exact ⟨inside, other, fun next => (next ▸ AnchorTable.nextIdFresh _) inside⟩

theorem storedSessionMirrors :
    LinkRow.Stored 1 ['a', 'b'] [⟨1, 1, 0, 0, 1, 2⟩] ∧
      Mirrored ((reopened 1 ['n'] ['a', 'b'] [⟨1, 1, 0, 0, 1, 2⟩] 100).along [⟨.input (.key ['x'] []), {}⟩])
        (((reopened 1 ['n'] ['a', 'b'] [⟨1, 1, 0, 0, 1, 2⟩] 100).along
          [⟨.input (.key ['x'] []), {}⟩]).along [⟨.save, {}⟩, ⟨.input (.key ['u'] []), {}⟩]) := by
  have stored : LinkRow.Stored 1 ['a', 'b'] [⟨1, 1, 0, 0, 1, 2⟩] := by decide
  obtain ⟨s, result, same, -⟩ : Run.Ends (reopen 1 ['n'] ['a', 'b'] _ 100) () _ :=
    reopenOk stored 100
  exact ⟨stored, linksMirrorAnchors (.stored 100 stored (same ▸ result)) _ _⟩

end Session

end ModalNotes
