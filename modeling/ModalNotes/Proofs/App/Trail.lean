import ModalNotes.Proofs.App.Act
import ModalNotes.Proofs.Notebook.Deed

/-! The notes to go back to. A link that is followed puts the note that it leaves on the trail once the other
note is open; going back takes its note off the trail before it tries to open it. Nothing else touches the
trail. -/
namespace ModalNotes

namespace LinkStore

theorem insertRowsOwned {s t : LinkStore} {parent : Int} {rows : List LinkRow} (owned : s.Owned)
    (bound : s.parent = some parent) (inserted : s.insertRows parent rows = .ok t) :
    t.parent = some parent ∧ t.Owned := by
  induction rows generalizing s with
  | nil =>
    cases inserted
    exact ⟨bound, owned⟩
  | cons r rest ih =>
    rw [insertRows] at inserted
    split at inserted
    · contradiction
    · rename_i own
      cases first : s.insert (Link.ofRow r) with
      | error fault =>
        rw [first] at inserted
        contradiction
      | ok u =>
        rw [first] at inserted
        have same : (Link.ofRow r).parent = s.parent := by
          rw [bound, Link.ofRow, Decidable.not_not.mp own]
        obtain ⟨parent', owned'⟩ := insertOwned owned (.inl same) first
        exact ih owned' (parent'.trans bound) inserted

end LinkStore

namespace Notebook

theorem noteGives (w : Storage) (id : Int) :
    (Storage.note? id).Gives w fun found => ∀ note, found = some note → note.id = id := by
  intro found result note given
  obtain ⟨-, sent⟩ : (Storage.note? id).After w fun r t => Storage.Frame w t ∧
      r.toOption = Database.sent [id] (w.committed.note? id) := Storage.querySent noteNeedsTable
  rw [result, given] at sent
  unfold Database.sent Database.note? Database.needNotes at sent
  split at sent
  · cases notes : w.committed.notes with
    | none =>
      rw [notes] at sent
      contradiction
    | some rows =>
      rw [notes] at sent
      have first : rows.find? (·.id == id) = some note := (Option.some.inj sent).symm
      simpa using List.find?_some first
  · contradiction

theorem loadGives (w : Storage) (maxHistory id : Int) :
    (load maxHistory id).Gives w fun s => s.noteId = some id ∧ s.links.Owned := by
  refine Run.givesBind (noteGives w id) fun found t own => ?_
  cases found with
  | none => exact Run.givesFail
  | some note =>
    refine Run.givesLast fun rows u => ?_
    rw [own note rfl]
    unfold Session.reopen
    intro s given
    cases taken : LinkStore.ofRows id rows with
    | error fault =>
      simp only [taken] at given
      contradiction
    | ok links =>
      simp only [taken] at given
      cases given
      exact LinkStore.insertRowsOwned (fun _ _ member => absurd member List.not_mem_nil) rfl taken

theorem taskOwned {d : Desk} (owned : d.session.links.Owned) (task : Task) :
    (task.run d).state.session.links.Owned := by
  cases taskGoes owned task with
  | on unsaved note owned' served storage => exact owned'
  | saved saving given session storage =>
    rw [session]
    exact LinkStore.settleOwned (LinkStore.boundOwned owned _) _

end Notebook

namespace App

open Run (Leaves leavesBind leavesPure leavesGet leavesLog)

/- Something happens to the app, or others do whatever they like to the tables. -/
inductive Incident
  | act (act : Act)
  | outside (storage : Storage)
  deriving DecidableEq, Repr

def Incident.run : Incident → Run App Unit
  | act a => a.run
  | outside storage => Run.modify fun a => { a with storage }

def amid (a : App) (incidents : List Incident) : App := incidents.foldl (fun a i => (i.run a).state) a

def Rests (trail : List Int) (a : App) : Prop := a.current.links.Owned ∧ a.trail = trail

theorem freshOwned (maxHistory : Int) (a : App) :
    (Session.fresh [] [] maxHistory : Run App Session).Ends a fun s b => s.links.Owned ∧ a = b :=
  ⟨_, rfl, fun _ _ member => absurd member List.not_mem_nil, rfl⟩

variable {trail : List Int}

theorem restsFrame {a b : App} (rests : Rests trail a) (session : b.session = a.session)
    (same : b.trail = a.trail) : Rests trail b := by
  obtain ⟨owned, taken⟩ := rests
  exact ⟨by rw [current, session]; exact owned, same.trans taken⟩

theorem restsLeaves {α : Type} {m : Run App α} (leaves : ∀ a, Leaves frame m a) : Run.Keeps (Rests trail) m :=
  Run.keepsLeaves leaves fun _ _ same rests =>
    restsFrame rests (congrArg (·.1.1) same) (congrArg (·.2.2) same)

theorem restsStatus (status : Text) : Run.Keeps (Rests trail) (setStatus status) := fun _ rests => rests

theorem restsOpenPrompt (prompt : Prompt) : Run.Keeps (Rests trail) (openPrompt prompt) :=
  fun _ rests => rests

theorem restsShown {s : Session} (owned : s.links.Owned) {a : App} (rests : Rests trail a) :
    Rests trail ((do host.attach s; refreshTitle : Run App Unit) a).state := by
  have shown := frameShown s a
  have here := currentOpen (congrArg (·.1.1) shown)
  refine ⟨?_, (congrArg (·.2.2) shown).trans rests.2⟩
  rw [here]
  exact owned

theorem restsDesk {α : Type} {m : Run Desk α} (task : Notebook.Task)
    (same : ∀ d, (task.run d).state = (m d).state) : Run.Keeps (Rests trail) (onDesk m) := by
  intro a rests
  have owned := Notebook.taskOwned (d := ⟨a.current, a.storage⟩) rests.1 task
  rw [same] at owned
  exact ⟨owned, rests.2⟩

theorem restsSession {α : Type} {m : Run Session α} (input : Session.Input)
    (same : ∀ s, (input.run s).state = (m s).state) : Run.Keeps (Rests trail) (onSession m) := by
  intro a rests
  have owned := (Session.inputBound rests.1 input).2
  rw [same] at owned
  exact ⟨owned, rests.2⟩

theorem loadRests {a : App} (rests : Rests trail a) (maxHistory id : Int) :
    (onStorage (Notebook.load maxHistory id)).After a fun r b =>
      Rests trail b ∧ ∀ s, r = .ok s → s.links.Owned :=
  ⟨rests, fun s loaded => (Notebook.loadGives a.storage maxHistory id s loaded).2⟩

theorem restsMount : Run.Keeps (Rests trail) mount := by
  refine Run.keepsGet fun a rests => ?_
  refine Run.afterBindEnds (Run.endsMono (freshOwned a.maxHistory a) ?_)
  rintro blank _ ⟨owned, rfl⟩
  dsimp only
  cases a.initialNote with
  | none => exact restsShown owned rests
  | some id =>
    refine Run.afterBindEnds (Run.endsAttempt.mpr (Run.afterMono (loadRests rests a.maxHistory id) ?_))
    rintro r b ⟨rests', loaded⟩
    cases r with
    | ok s => exact restsShown (loaded s rfl) rests'
    | error fault =>
      dsimp only
      split
      · refine Run.afterBindEnds (Run.endsModify.mpr (Run.afterBindEnds (Run.endsPure.mpr ?_)))
        exact restsShown (a := { b with status := fault.message }) owned rests'
      · exact rests'

theorem restsSave : Run.Keeps (Rests trail) save := by
  refine Run.keepsGet fun a rests => ?_
  split
  · exact rests
  · refine Run.keptBind (restsDesk .save (fun d => Run.ignoredState _ d) a rests) fun outcome =>
      Run.keepsBind (restsStatus _) fun _ => Run.keepsBind (fun _ rests => rests) fun b => ?_
    split
    · exact Run.keepsBind (restsOpenPrompt _) fun _ => restsLeaves frameRefreshTitle
    · exact restsLeaves frameRefreshTitle

theorem restsNewNote : Run.Keeps (Rests trail) newNote := by
  refine Run.keepsGet fun a rests => ?_
  split
  · exact rests
  · refine Run.afterBindEnds (Run.endsMono (freshOwned a.maxHistory a) ?_)
    rintro blank _ ⟨owned, rfl⟩
    exact restsShown owned rests

theorem restsSubmitLink (value : Text) : Run.Keeps (Rests trail) (submitLink value) := by
  intro a rests
  have rests' : Rests trail (onDesk (Notebook.linkTo value) a).state :=
    restsDesk (.link value) (fun d => Run.ignoredState _ d) a rests
  change (submitLink value).After a fun _ b => Rests trail b
  unfold submitLink
  refine Run.afterBindEnds (Run.endsAttempt.mpr ?_)
  unfold Run.After
  cases (onDesk (Notebook.linkTo value) a).result with
  | ok linked =>
    cases linked with
    | none => exact rests'
    | some link => exact restsStatus _ _ rests'
  | error fault =>
    dsimp only
    split
    · exact Run.keepsBind (restsSession .cancel fun _ => rfl) (fun _ => restsStatus _) _ rests'
    · exact rests'

theorem restsSubmitSearch (value : Text) : Run.Keeps (Rests trail) (submitSearch value) := by
  refine Run.keepsBind (restsSession (.search (some value)) fun s => Run.ignoredState _ s) fun found => ?_
  split
  · exact Run.keepsPure ()
  · exact restsStatus _

theorem restsSubmit (value : Text) : Run.Keeps (Rests trail) (submit value) := by
  refine Run.keepsGet fun a rests => ?_
  have closed : Run.Keeps (Rests trail) (closePrompt false) := fun b rests => ⟨rests.1, rests.2⟩
  have shown : Run.Keeps (Rests trail) host.refresh := restsLeaves frameRefresh
  refine Run.keptBind (closed a rests) fun _ => ?_
  split
  · exact Run.keepsPure ()
  · split
    · exact Run.keepsPure ()
    · dsimp only
      split
      · exact Run.keepsBind (restsSubmitLink value) fun _ => shown
      · exact Run.keepsBind (restsSubmitSearch value) fun _ => shown
      · have renamed : Run.Keeps (Rests trail)
            (onSession (Run.modify fun s => { s with title := Text.strip value })) :=
          restsDesk (m := Desk.onSession (Run.modify fun s => { s with title := Text.strip value }))
            (.rename (Text.strip value)) fun _ => rfl
        exact Run.keepsBind renamed fun _ => Run.keepsBind (restsLeaves frameRefreshTitle) fun _ => shown

theorem restsCancel : Run.Keeps (Rests trail) (closePrompt true) := by
  have hidden : Run.Keeps (Rests trail) (Run.modify fun a : App => { a with promptShown := false }) :=
    fun _ rests => rests
  refine Run.keepsGet fun a rests => Run.afterBindEnds (Run.endsPut.mpr ?_)
  have rests' : Rests trail { a with prompt := none } := rests
  split
  · exact Run.keepsBind (restsSession .cancel fun _ => rfl) (fun _ =>
      Run.keepsBind (restsStatus _) fun _ => hidden) _ rests'
  · exact hidden _ rests'

theorem trailFrame {α : Type} {m : Run App α} {a : App} (leaves : Leaves frame m a) :
    Leaves App.trail m a := by
  have same : (m a).state.frame = a.frame := leaves
  exact congrArg (fun f : _ × _ × List Int => f.2.2) same

theorem trailKey (name : Text) (modifiers : List Text) (a : App) :
    Leaves App.trail (host.key name modifiers) a := by
  have watched : ∀ b, (host.watched (Session.key name modifiers) b).state.trail = b.trail :=
    fun b => congrArg (·.2.2) (frameWatched (Session.key name modifiers) b)
  unfold Host.key
  refine leavesGet (leavesBind (trailFrame (frameReport _ a)) fun _ b =>
    leavesBind (watched b) fun reply c => ?_)
  refine leavesGet (leavesBind (trailFrame (frameReport _ c)) fun _ d =>
    leavesBind (trailFrame (frameRefresh d)) fun _ e => leavesBind rfl fun _ f => ?_)
  split
  · exact leavesBind rfl fun _ g => leavesPure reply g
  · exact leavesPure reply f

theorem restsHostKey (name : Text) (modifiers : List Text) :
    Run.Keeps (Rests trail) (host.key name modifiers) := by
  intro a rests
  have shows : Shows a (Session.key name modifiers a.current).state (host.key name modifiers a).state :=
    hostKeyAfter name modifiers a
  have owned := (Session.inputBound rests.1 (.key name modifiers)).2
  rw [show (Session.Input.run (.key name modifiers) a.current).state =
    (Session.key name modifiers a.current).state from Run.ignoredState _ _] at owned
  refine ⟨?_, (trailKey name modifiers a).trans rests.2⟩
  rw [currentOpen shows.session]
  exact owned

theorem sessionKeyServes {a : App} {e : KeyEvent} (nowhere : leadsFrom a.current e = none) :
    (sessionKey e a).state = (host.key e.key [] a).state := by
  have served : (do let _ ← host.key e.key []; pure true : Run App Bool).After a fun _ b =>
      b = (host.key e.key [] a).state := Run.answeredState _ true a
  change (sessionKey e).After a fun _ b => b = (host.key e.key [] a).state
  unfold sessionKey
  refine Run.afterBindEnds (Run.endsGet.mpr ?_)
  unfold leadsFrom at nowhere
  dsimp only
  cases link : a.current.linkAtCursor with
  | none => exact served
  | some l =>
    rw [link] at nowhere
    cases enter : decide (e.key = "enter".toList) && decide (a.current.editor.mode = .normal) with
    | true =>
      rw [enter] at nowhere
      contradiction
    | false => exact served

theorem restsKey {a : App} (rests : Rests trail a) {e : KeyEvent} (nowhere : (Act.key e).leads a = none) :
    Rests trail (key e a).state := by
  change (key e).After a fun _ b => Rests trail b
  unfold key
  refine Run.afterBindEnds (Run.endsGet.mpr ?_)
  split
  · exact rests
  unfold Act.leads at nowhere
  dsimp only at nowhere
  cases asked : a.prompt.isSome with
  | true =>
    rw [if_pos rfl]
    split
    · exact Run.keepsBind restsCancel (fun _ => Run.keepsPure true) a rests
    · exact rests
  | false =>
    rw [if_neg Bool.false_ne_true]
    cases own : hostKeys.contains e.name with
    | true => exact rests
    | false =>
      rw [asked, own] at nowhere
      rw [if_neg Bool.false_ne_true, Run.After, sessionKeyServes nowhere]
      exact restsHostKey e.key [] a rests

def tablesFor (w : Storage) (s : Session) : Storage :=
  if s.isDirty then (Notebook.save ⟨s, w⟩).state.storage else w

inductive Course
  | unsaved
  | missing (left : Session)
  | opened (left found : Session)

def course (a : App) (s : Session) (id : Int) : Course :=
  match leftBy a.storage s with
  | none => .unsaved
  | some left =>
    match (Notebook.load a.maxHistory id (tablesFor a.storage s)).result with
    | .ok found => .opened left found
    | .error _ => .missing left

def Course.session (s : Session) : Course → Session
  | unsaved => s
  | missing left => left
  | opened _ found => found

def Course.pushes : Course → List Int
  | opened left _ => left.noteId.toList
  | _ => []

theorem openingTrail {b : App} {left : Session} (opened : b.session = some left) (maxHistory id : Int)
    (remember : Bool) : (opening maxHistory id remember).After b fun _ c =>
      match (Notebook.load maxHistory id b.storage).result with
      | .ok found => c.session = some found ∧
          c.trail = (if remember then left.noteId.toList else []) ++ b.trail
      | .error _ => c.session = some left ∧ c.trail = b.trail := by
  unfold opening
  have here := currentOpen opened
  have shown : ∀ (t : Session) (c : App), Run.After (do host.attach t; refreshTitle) c fun _ d =>
      d.session = some t ∧ d.trail = c.trail := by
    intro t c
    have shown := frameShown t c
    exact ⟨congrArg (·.1.1) shown, congrArg (·.2.2) shown⟩
  refine Run.afterBindEnds (Run.endsAttempt.mpr ?_)
  rw [onStorage, Run.afterOn, Run.After]
  cases (Notebook.load maxHistory id b.storage).result with
  | error fault =>
    dsimp only
    split <;> exact ⟨opened, rfl⟩
  | ok found =>
    refine Run.afterBindEnds (Run.endsGet.mpr ?_)
    have atHand : ({ b with storage := (Notebook.load maxHistory id b.storage).state } : App).current =
        left := here
    rw [atHand]
    dsimp only
    cases remember with
    | true =>
      exact Run.afterBindEnds (Run.endsModify.mpr (shown found _))
    | false => exact shown found _

theorem openingCourse {a b : App} {s left : Session} (opened : b.session = some left)
    (tables : b.storage = tablesFor a.storage s) (trail : b.trail = a.trail)
    (given : leftBy a.storage s = some left) (id : Int) (remember : Bool) :
    (opening a.maxHistory id remember).After b fun _ c =>
      c.session = some ((a.course s id).session s) ∧
        c.trail = (if remember then (a.course s id).pushes else []) ++ a.trail := by
  refine Run.afterMono (openingTrail opened a.maxHistory id remember) fun _ c post => ?_
  rw [course, given, ← tables]
  cases result : (Notebook.load a.maxHistory id b.storage).result with
  | ok found =>
    rw [result, trail] at post
    exact post
  | error fault =>
    rw [result, trail] at post
    exact ⟨post.1, by simpa [Course.pushes] using post.2⟩

theorem savedCourse {a : App} {s : Session} (opened : a.session = some s) (owned : s.links.Owned)
    (dirty : s.isDirty = true) : (onDesk Notebook.save).Ends a fun out b =>
      b.storage = tablesFor a.storage s ∧ b.trail = a.trail ∧
      match leftBy a.storage s with
      | none => out.ok = false ∧ b.session = some s
      | some left => out.ok = true ∧ b.session = some left := by
  obtain ⟨out, result, -, -, outcome⟩ := Notebook.saveEnds (d := ⟨s, a.storage⟩) owned
  unfold Run.Ends
  rw [deskAt Notebook.save opened]
  refine ⟨out, result, ?_, rfl, ?_⟩
  · rw [tablesFor, if_pos dirty]
    rfl
  · rw [leftBy, if_pos dirty]
    cases given : Notebook.savedBy ⟨s, a.storage⟩ with
    | none =>
      rw [given] at outcome
      exact ⟨outcome.1, congrArg some outcome.2.2.1⟩
    | some r =>
      rw [given] at outcome
      obtain ⟨rfl, session, -⟩ := outcome
      exact ⟨rfl, congrArg some session⟩

theorem followCourse {a : App} {s : Session} (opened : a.session = some s) (owned : s.links.Owned) (id : Int)
    (remember : Bool) : (follow id remember).After a fun _ c =>
      c.session = some ((a.course s id).session s) ∧
        c.trail = (if remember then (a.course s id).pushes else []) ++ a.trail := by
  have here := currentOpen opened
  unfold follow
  refine Run.afterBindEnds (Run.endsGet.mpr ?_)
  rw [opened, here]
  dsimp only
  cases dirty : s.isDirty with
  | false =>
    have tables : a.storage = tablesFor a.storage s := by rw [tablesFor, if_neg (by simp [dirty])]
    exact Run.afterBindEnds (Run.endsPure.mpr (openingCourse opened tables rfl (leftClean dirty) id remember))
  | true =>
    refine Run.afterBindEnds (Run.endsMono (savedCourse opened owned dirty) ?_)
    rintro out b ⟨tables, trail, post⟩
    cases left : leftBy a.storage s with
    | none =>
      rw [left] at post
      obtain ⟨refused, session⟩ := post
      rw [refused, course, left]
      exact ⟨session, by cases remember <;> exact trail⟩
    | some t =>
      rw [left] at post
      obtain ⟨saved, session⟩ := post
      rw [saved]
      exact openingCourse session tables trail left id remember

theorem courseOwned (a : App) {s : Session} (owned : s.links.Owned) (id : Int) :
    ((a.course s id).session s).links.Owned := by
  unfold course
  cases given : leftBy a.storage s with
  | none => exact owned
  | some left =>
    cases result : (Notebook.load a.maxHistory id (tablesFor a.storage s)).result with
    | ok found => exact (Notebook.loadGives _ a.maxHistory id found result).2
    | error fault =>
      unfold leftBy at given
      split at given
      · obtain ⟨r, -, rfl⟩ := Option.map_eq_some_iff.mp given
        exact LinkStore.settleOwned (LinkStore.boundOwned owned _) _
      · cases given
        exact owned

theorem actCourse {a : App} {s : Session} (opened : a.session = some s) (owned : s.links.Owned) {act : Act}
    {id : Int} (leads : act.leads a = some id) :
    (act.run a).state.session = some ((a.course s id).session s) ∧
      (act.run a).state.trail = if act = .back then a.trail.tail else (a.course s id).pushes ++ a.trail := by
  cases act with
  | key e =>
    have done := keyAfter opened e
    unfold Run.After at done
    rw [leads] at done
    have run : (Act.run (.key e) a).state = (follow id true a).state :=
      (Run.ignoredState (key e) a).trans done
    rw [run, if_neg (by simp)]
    exact followCourse opened owned id true
  | back =>
    have run : (Act.run .back a).state = (back a).state := rfl
    rw [run, backState, if_pos rfl]
    cases trail : a.trail with
    | nil =>
      rw [Act.leads, trail] at leads
      contradiction
    | cons top rest =>
      rw [Act.leads, trail] at leads
      cases leads
      exact followCourse (a := { a with trail := rest }) opened owned id false
  | mount | submit | save | search | rename | newNote | faults => contradiction

theorem restsAct {a : App} (rests : Rests trail a) {act : Act} (nowhere : act.leads a = none) :
    Rests trail (act.run a).state := by
  cases act with
  | mount => exact restsMount a rests
  | key e =>
    have run : (Act.run (.key e) a).state = (key e a).state := Run.ignoredState (key e) a
    exact run ▸ restsKey rests nowhere
  | submit value => exact restsSubmit value a rests
  | save => exact restsSave a rests
  | search => exact restsOpenPrompt .search a rests
  | rename => exact restsOpenPrompt .title a rests
  | newNote => exact restsNewNote a rests
  | back =>
    have run : (Act.run .back a).state = (back a).state := rfl
    rw [run, backState, List.head?_eq_none_iff.mp nowhere]
    exact rests
  | faults failing failure => exact rests

theorem shutFollows {a : App} (shut : a.session = none) (id : Int) (remember : Bool) :
    (follow id remember a).state = a := by
  change (follow id remember).After a fun _ b => b = a
  unfold follow
  refine Run.afterBindEnds (Run.endsGet.mpr ?_)
  rw [shut]
  rfl

theorem shutKey {a : App} (shut : a.session = none) (e : KeyEvent) : (key e a).state = a := by
  change (key e).After a fun _ b => b = a
  unfold key
  refine Run.afterBindEnds (Run.endsGet.mpr ?_)
  rw [shut]
  rfl

theorem ownedAct {a : App} (owned : a.current.links.Owned) (act : Act) :
    (act.run a).state.current.links.Owned := by
  cases leads : act.leads a with
  | none => exact (restsAct ⟨owned, rfl⟩ leads).1
  | some id =>
    cases opened : a.session with
    | some s =>
      have here := currentOpen opened
      have course := actCourse opened (here ▸ owned) leads
      rw [currentOpen course.1]
      exact courseOwned a (here ▸ owned) id
    | none =>
      cases act with
      | key e =>
        have run : (Act.run (.key e) a).state = (key e a).state := Run.ignoredState (key e) a
        rw [run, shutKey opened]
        exact owned
      | back =>
        have run : (Act.run .back a).state = (back a).state := rfl
        rw [run, backState]
        cases a.trail with
        | nil => exact owned
        | cons top rest =>
          dsimp only
          rw [shutFollows (a := { a with trail := rest }) opened]
          exact owned
      | mount | submit | save | search | rename | newNote | faults => contradiction

theorem ownedAmid {a : App} (owned : a.current.links.Owned) (incidents : List Incident) :
    (a.amid incidents).current.links.Owned := by
  induction incidents generalizing a with
  | nil => exact owned
  | cons i rest ih =>
    refine ih ?_
    cases i with
    | act act => exact ownedAct owned act
    | outside storage => exact owned

theorem courseFinds {a : App} {s left found : Session} {id : Int}
    (course : a.course s id = .opened left found) : found.noteId = some id := by
  unfold App.course at course
  split at course
  · contradiction
  · split at course
    · rename_i result
      cases course
      exact (Notebook.loadGives _ a.maxHistory id found result).1
    · contradiction

/- What an act does to the session and to the notes to go back to. A link that is followed puts the note that
was left on the trail, if the other note is opened, and else leaves the trail as it is. Going back takes its
note off the trail, whether that is opened or not. Where no note is opened the session stays, as it was if its
changed text cannot be saved, and as it is left if the other note cannot be loaded. -/
def Trails (a : App) (s : Session) (act : Act) (b : App) : Prop :=
  match act.leads a with
  | none => b.trail = a.trail
  | some id =>
    match a.course s id with
    | .opened left found => found.noteId = some id ∧ b.session = some found ∧
        b.trail = if act = .back then a.trail.tail else left.noteId.toList ++ a.trail
    | .missing left => b.session = some left ∧ b.trail = if act = .back then a.trail.tail else a.trail
    | .unsaved => b.session = some s ∧ b.trail = if act = .back then a.trail.tail else a.trail

theorem actTrails {a : App} {s : Session} (opened : a.session = some s) (owned : s.links.Owned) (act : Act) :
    Trails a s act (act.run a).state := by
  unfold Trails
  cases leads : act.leads a with
  | none =>
    have owned' : a.current.links.Owned := by
      rw [currentOpen opened]
      exact owned
    exact (restsAct ⟨owned', rfl⟩ leads).2
  | some id =>
    obtain ⟨session, trail⟩ := actCourse opened owned leads
    dsimp only
    cases course : a.course s id with
    | opened left found =>
      rw [course] at session trail
      exact ⟨courseFinds course, session, trail⟩
    | missing left =>
      rw [course] at session trail
      exact ⟨session, trail⟩
    | unsaved =>
      rw [course] at session trail
      exact ⟨session, trail⟩

theorem trailStacks {a : App} (shut : a.session = none) (incidents : List Incident) {s : Session}
    (opened : (a.amid incidents).session = some s) (act : Act) :
    Trails (a.amid incidents) s act (a.amid (incidents ++ [.act act])) := by
  have blank : a.current.links.Owned := by
    rw [current, shut]
    exact fun _ _ member => absurd member List.not_mem_nil
  have owned := ownedAmid blank incidents
  rw [currentOpen opened] at owned
  have last : a.amid (incidents ++ [.act act]) = (act.run (a.amid incidents)).state := by
    rw [amid, List.foldl_append]
    rfl
  rw [last]
  exact actTrails opened owned act

/- A link is followed, and then the note that was left is deleted by others. -/
def abandoned : List Incident :=
  [.act .mount, .act (.key pressEnter), .outside { committed := ⟨some [⟨2, ['b'], [], false⟩], some []⟩ }]

theorem deletedForgotten : leading.session = none ∧ leading.trail = [] ∧
    ∃ s, (leading.amid abandoned).session = some s ∧ s.noteId = some 2 ∧ (leading.amid abandoned).trail = [1] ∧
      (leading.amid (abandoned ++ [.act .back])).session = some s ∧
      (leading.amid (abandoned ++ [.act .back])).trail = [] := by
  have told : ((leading.amid abandoned).session.map fun s => (s.isDirty, s.noteId)) = some (false, some 2) ∧
      (leading.amid abandoned).trail = [1] ∧ Act.back.leads (leading.amid abandoned) = some 1 ∧
      (Notebook.load (leading.amid abandoned).maxHistory 1 (leading.amid abandoned).storage).result.toOption =
        none := by decide +kernel
  obtain ⟨given, trail, leads, gone⟩ := told
  obtain ⟨s, opened, marks⟩ := Option.map_eq_some_iff.mp given
  obtain ⟨clean, bound⟩ := Prod.mk.inj marks
  have course : (leading.amid abandoned).course s 1 = .missing s := by
    have tables : tablesFor (leading.amid abandoned).storage s = (leading.amid abandoned).storage := by
      rw [tablesFor, clean]
      rfl
    rw [App.course, leftClean clean]
    dsimp only
    rw [tables]
    split
    · rename_i found
      rw [found] at gone
      contradiction
    · rfl
  have trails := trailStacks rfl abandoned opened .back
  rw [Trails, leads] at trails
  dsimp only at trails
  rw [course, trail] at trails
  exact ⟨rfl, rfl, s, opened, bound, trail, trails.1, trails.2⟩

end App

end ModalNotes
