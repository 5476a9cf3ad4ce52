import ModalNotes.App
import ModalNotes.Proofs.Notebook.Current

/-! What the app keeps. Whatever it draws, it works on the open session and on the tables, or it opens
another session; what fails on the way fails behind that. -/
namespace ModalNotes.App

open Run (Leaves leavesBind leavesPure leavesGet leavesReads leavesPut leavesLog)

def core (a : App) : Option Session × Storage × Int := (a.session, a.storage, a.maxHistory)

def frame (a : App) : (Option Session × Storage × Int) × Option Prompt × List Int :=
  (a.core, a.prompt, a.trail)

theorem frameDraw (m : Picture) (a : App) : Leaves frame (draw m) a := by
  refine leavesGet ?_
  split
  · exact leavesReads fun view => leavesPut rfl
  · exact leavesPure () a

theorem frameRefresh (a : App) : Leaves frame host.refresh a := leavesGet (frameDraw _ a)

theorem coreRefresh (a : App) : Leaves core host.refresh a := congrArg Prod.fst (frameRefresh a)

theorem frameRefreshTitle (a : App) : Leaves frame refreshTitle a := by
  cases opened : a.session <;> simp [Leaves, refreshTitle, Run.modify, frame, core, opened]

theorem coreRefreshTitle (a : App) : Leaves core refreshTitle a := congrArg Prod.fst (frameRefreshTitle a)

theorem reportEnds (line : Text) (a : App) : (host.report line).Ends a fun _ b => a = b := ⟨(), rfl, rfl⟩

theorem frameReport (line : Text) (a : App) : Leaves frame (host.report line) a :=
  leavesBind (leavesLog _ a) fun _ _ => rfl

theorem frameRelay (events : List ModalNotes.Event) (a : App) : Leaves frame (host.relay events) a := by
  induction events generalizing a with
  | nil => exact leavesPure () a
  | cons event rest ih =>
    cases event with
    | log entry => exact leavesBind (leavesLog entry a) fun _ t => ih t
    | modeChanged change => exact leavesBind (frameReport _ a) fun _ t => ih t

theorem frameAttach (session : Session) (a : App) :
    (host.attach session a).state.frame =
      ((some session, a.storage, a.maxHistory), a.prompt, a.trail) := by
  have shown : ∀ b : App, Leaves frame (do
      host.refresh
      host.deliver (.status (Host.statusLine session none))) b :=
    fun b => leavesBind (frameRefresh b) fun _ _ => rfl
  exact shown { a with session := some session }

theorem frameWatched {α : Type} (m : Run Session α) (a : App) :
    (host.watched m a).state.frame =
      ((some (m a.current).state, a.storage, a.maxHistory), a.prompt, a.trail) := by
  have relayed := frameRelay (m a.current).trace { a with session := some (m a.current).state }
  unfold Host.watched
  dsimp only
  split <;> exact relayed

def Shows (a : App) (s : Session) (b : App) : Prop :=
  b.core = (some s, a.storage, a.maxHistory) ∧ (s.pendingAnchor = none → b.prompt = a.prompt)

theorem Shows.session {a b : App} {s : Session} (shows : Shows a s b) : b.session = some s :=
  congrArg Prod.fst shows.1

theorem showsLeaves {α : Type} {a : App} {s : Session} {m : Run App α} (leaves : ∀ b, Leaves frame m b) :
    Run.Keeps (Shows a s) m :=
  Run.keepsLeaves leaves fun _ _ same shows => ⟨(congrArg Prod.fst same).trans shows.1,
    fun nothing => (congrArg (·.2.1) same).trans (shows.2 nothing)⟩

theorem hostKeyAfter (name : Text) (modifiers : List Text) (a : App) :
    (host.key name modifiers).After a fun _ b => Shows a (Session.key name modifiers a.current).state b := by
  generalize later : (Session.key name modifiers a.current).state = s
  have gesture : ∀ reply : Reply, Run.Keeps (Shows a s) (do
      if s.pendingAnchor.isSome then host.deliver .linkTarget
      pure reply) := by
    intro reply b shows
    split
    · rename_i waits
      exact ⟨shows.1, fun nothing => by simp [nothing] at waits⟩
    · exact shows
  have shown : ∀ reply : Reply, Run.Keeps (Shows a s) (do
      let after := host.view (← Run.get)
      host.report (Host.logLine "result <-" (Host.sessionFields after) (Host.replyFields reply))
      host.refresh
      host.deliver (.status (Host.statusLine after (some reply)))
      if after.pendingAnchor.isSome then host.deliver .linkTarget
      pure reply) := by
    intro reply
    refine Run.keepsGet fun b shows => ?_
    have view : host.view b = s := (congrArg (·.getD blankSession) shows.session :)
    rw [view]
    exact Run.keepsBind (showsLeaves (frameReport _)) (fun _ => Run.keepsBind (showsLeaves frameRefresh)
      fun _ => Run.keepsBind (showsLeaves (m := host.deliver (.status _)) fun _ => rfl) fun _ =>
        gesture reply) b shows
  unfold Host.key
  refine Run.afterBindEnds (Run.endsGet.mpr ?_)
  refine Run.afterBindEnds (Run.endsMono (reportEnds _ a) ?_)
  rintro _ _ rfl
  have watched := frameWatched (Session.key name modifiers) a
  rw [later] at watched
  exact Run.keptBind ⟨congrArg Prod.fst watched, fun _ => congrArg (·.2.1) watched⟩ shown

structure Kept (a : App) : Prop where
  tables : a.storage.committed.Sound
  current : ∀ s, a.session = some s → s.Current a.storage.committed

theorem keptCore {a b : App} (kept : Kept a) (same : b.core = a.core) : Kept b := by
  simp only [core, Prod.mk.injEq] at same
  obtain ⟨session, storage, -⟩ := same
  exact ⟨storage ▸ kept.tables, fun s opened => storage ▸ kept.current s (session ▸ opened)⟩

theorem keptLeaves {α : Type} {m : Run App α} (leaves : ∀ a, Leaves core m a) : Run.Keeps Kept m :=
  Run.keepsLeaves leaves fun _ _ same kept => keptCore kept same

theorem keptTask {a b : App} (kept : Kept a) {s : Session} (opened : a.session = some s)
    (task : Notebook.Task) (session : b.session = some (task.run ⟨s, a.storage⟩).state.session)
    (storage : b.storage = (task.run ⟨s, a.storage⟩).state.storage) : Kept b := by
  obtain ⟨tables, current⟩ :=
    Notebook.taskCurrent (d := ⟨s, a.storage⟩) kept.tables (kept.current s opened) task
  refine ⟨storage ▸ tables, fun t opened' => ?_⟩
  cases session.symm.trans opened'
  exact storage ▸ current

theorem keptOpened {a b : App} (kept : Kept a) {s : Session} (current : s.Current a.storage.committed)
    (same : b.core = (some s, a.storage, a.maxHistory)) : Kept b := by
  simp only [core, Prod.mk.injEq] at same
  obtain ⟨session, storage, -⟩ := same
  refine ⟨storage ▸ kept.tables, fun t opened => ?_⟩
  cases session.symm.trans opened
  exact storage ▸ current

theorem freshEnds (maxHistory : Int) (a : App) :
    (Session.fresh [] [] maxHistory : Run App Session).Ends a fun s b =>
      s.Current a.storage.committed ∧ a = b :=
  ⟨_, rfl, Session.currentFresh _ [] [] maxHistory, rfl⟩

theorem loadKept {a : App} (kept : Kept a) (maxHistory id : Int) :
    (onStorage (Notebook.load maxHistory id)).After a fun r b =>
      Kept b ∧ b.session = a.session ∧ b.storage.committed = a.storage.committed ∧
        ∀ s, r = .ok s → s.Current a.storage.committed ∧ s.noteId = some id := by
  rw [onStorage, Run.afterOn]
  refine Run.afterMono (Notebook.loadAfter kept.tables maxHistory id) ?_
  rintro r w ⟨frame, outcome⟩
  have committed := frame.committed
  refine ⟨⟨committed ▸ kept.tables, fun s opened => committed ▸ kept.current s opened⟩, rfl, committed,
    fun s loaded => ?_⟩
  cases found : (if Database.fits id then a.storage.committed.noteOf id else none) with
  | none =>
    rw [found] at outcome
    obtain ⟨fault, failed⟩ := outcome
    cases failed.symm.trans loaded
  | some note =>
    rw [found] at outcome
    cases outcome.symm.trans loaded
    split at found
    · rename_i narrow
      exact ⟨Session.currentReopened kept.tables narrow found maxHistory, rfl⟩
    · contradiction

theorem keptStatus (status : Text) : Run.Keeps Kept (setStatus status) := keptLeaves fun _ => rfl

theorem frameShown (s : Session) (a : App) : ((do host.attach s; refreshTitle : Run App Unit) a).state.frame =
    ((some s, a.storage, a.maxHistory), a.prompt, a.trail) :=
  Run.keptBind (P := fun b => b.frame = ((some s, a.storage, a.maxHistory), a.prompt, a.trail))
    (frameAttach s a) fun _ b same => (frameRefreshTitle b).trans same

theorem coreShown (s : Session) (a : App) :
    ((do host.attach s; refreshTitle : Run App Unit) a).state.core = (some s, a.storage, a.maxHistory) :=
  congrArg Prod.fst (frameShown s a)

theorem keptAttach {a : App} (kept : Kept a) {s : Session} (current : s.Current a.storage.committed) :
    Run.After (do host.attach s; refreshTitle) a fun _ b => Kept b :=
  keptOpened kept current (coreShown s a)

theorem keptMount : Run.Keeps Kept mount := by
  refine Run.keepsGet fun a kept => ?_
  refine Run.afterBindEnds (Run.endsMono (freshEnds a.maxHistory a) ?_)
  rintro blank _ ⟨current, rfl⟩
  dsimp only
  cases a.initialNote with
  | none => exact keptAttach kept current
  | some id =>
    refine Run.afterBindEnds (Run.endsAttempt.mpr (Run.afterMono (loadKept kept a.maxHistory id) ?_))
    rintro r b ⟨kept', -, committed, loaded⟩
    cases r with
    | ok s => exact keptAttach kept' (committed ▸ (loaded s rfl).1)
    | error fault =>
      dsimp only
      split
      · refine Run.afterBindEnds (Run.endsModify.mpr ?_)
        refine Run.afterBindEnds (Run.endsPure.mpr ?_)
        exact keptAttach (a := { b with status := fault.message }) (keptCore kept' rfl) (committed ▸ current)
      · exact kept'

theorem currentOpen {a : App} {s : Session} (opened : a.session = some s) : a.current = s := by
  rw [current, opened, Option.getD_some]

theorem deskAt {α : Type} (m : Run Desk α) {a : App} {s : Session} (opened : a.session = some s) :
    onDesk m a = Run.on (fun _ : App => ⟨s, a.storage⟩)
      (fun d _ => { a with session := some d.session, storage := d.storage }) m a := by
  rw [← currentOpen opened]
  rfl

theorem keptDesk {α : Type} {m : Run Desk α} {a : App} (kept : Kept a) {s : Session}
    (opened : a.session = some s) (task : Notebook.Task)
    (same : (task.run ⟨s, a.storage⟩).state = (m ⟨s, a.storage⟩).state) : Kept (onDesk m a).state := by
  rw [deskAt m opened]
  exact keptTask kept opened task (same ▸ rfl) (same ▸ rfl)

theorem keptSession {α : Type} {m : Run Session α} {a : App} (kept : Kept a) {s : Session}
    (opened : a.session = some s) (input : Session.Input)
    (same : (input.run s).state = (m s).state) : Kept (onSession m a).state :=
  keptDesk (m := Desk.onSession m) kept opened (.input input) (by
    change Desk.mk (input.run s).state a.storage = Desk.mk (m s).state a.storage
    rw [same])

theorem keptOpenPrompt (prompt : Prompt) : Run.Keeps Kept (openPrompt prompt) := keptLeaves fun _ => rfl

theorem keptSave : Run.Keeps Kept save := by
  refine Run.keepsGet fun a kept => ?_
  split
  · exact kept
  · rename_i shut
    obtain ⟨s, opened⟩ := Option.ne_none_iff_exists'.mp (by simpa using shut)
    refine Run.keptBind (keptDesk kept opened .save (Run.ignoredState _ _)) fun outcome =>
      Run.keepsBind (keptStatus _) fun _ => Run.keepsBind (keptLeaves fun _ => rfl) fun b => ?_
    split
    · exact Run.keepsBind (keptOpenPrompt _) fun _ => keptLeaves coreRefreshTitle
    · exact keptLeaves coreRefreshTitle

theorem keptNewNote : Run.Keeps Kept newNote := by
  refine Run.keepsGet fun a kept => ?_
  split
  · exact kept
  · refine Run.afterBindEnds (Run.endsMono (freshEnds a.maxHistory a) ?_)
    rintro blank _ ⟨current, rfl⟩
    exact keptAttach kept current

theorem keptSubmitLink {a : App} (kept : Kept a) {s : Session} (opened : a.session = some s)
    (value : Text) : Kept (submitLink value a).state := by
  change (submitLink value).After a fun _ b => Kept b
  unfold submitLink
  refine Run.afterBindEnds (Run.endsAttempt.mpr ?_)
  have kept' : Kept (onDesk (Notebook.linkTo value) a).state :=
    keptDesk kept opened (.link value) (Run.ignoredState _ _)
  unfold Run.After
  cases (onDesk (Notebook.linkTo value) a).result with
  | ok linked =>
    cases linked with
    | none => exact kept'
    | some link => exact keptStatus _ _ kept'
  | error fault =>
    dsimp only
    split
    · exact Run.keptBind (keptSession kept' rfl .cancel rfl) fun _ => keptStatus _
    · exact kept'

theorem keptSubmitSearch {a : App} (kept : Kept a) {s : Session} (opened : a.session = some s)
    (value : Text) : Kept (submitSearch value a).state := by
  refine Run.keptBind (keptSession kept opened (.search (some value)) (Run.ignoredState _ _)) fun found => ?_
  split
  · exact keptLeaves fun _ => rfl
  · exact keptStatus _

theorem closeEnds (a : App) : (closePrompt false).Ends a fun _ b => b.core = a.core := ⟨(), rfl, rfl⟩

theorem keptSubmit (value : Text) : Run.Keeps Kept (submit value) := by
  refine Run.keepsGet fun a kept => ?_
  refine Run.afterBindEnds (Run.endsMono (closeEnds a) ?_)
  intro _ b same
  have kept' := keptCore kept same
  split
  · exact kept'
  · rename_i shut
    obtain ⟨s, opened⟩ := Option.ne_none_iff_exists'.mp (by simpa using shut)
    have opened' : b.session = some s := (congrArg Prod.fst same).trans opened
    split
    · exact kept'
    · have shown : Run.Keeps Kept host.refresh := keptLeaves coreRefresh
      dsimp only
      split
      · exact Run.keptBind (keptSubmitLink kept' opened' value) fun _ => shown
      · exact Run.keptBind (keptSubmitSearch kept' opened' value) fun _ => shown
      · have renamed : Kept (onSession (Run.modify fun s => { s with title := Text.strip value }) b).state :=
          keptDesk (m := Desk.onSession (Run.modify fun s => { s with title := Text.strip value }))
            kept' opened' (.rename (Text.strip value)) rfl
        exact Run.keptBind renamed fun _ => Run.keepsBind (keptLeaves coreRefreshTitle) fun _ => shown

end ModalNotes.App
