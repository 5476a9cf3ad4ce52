import ModalNotes.Proofs.App.Follow
import ModalNotes.Proofs.Notebook.Workspace

/-! Runs of the app. From sound tables, whatever happens, the open session is never behind what the tables
have of it, so what following a link leaves behind is known of every run. -/
namespace ModalNotes.App

inductive Act
  | mount
  | key (e : KeyEvent)
  | submit (value : Text)
  | save
  | search
  | rename
  | newNote
  | back
  | faults (failing : List Leg) (failure : Text)
  deriving DecidableEq, Repr

def Act.run : Act → Run App Unit
  | mount => App.mount
  | key e => do let _ ← App.key e
  | submit value => App.submit value
  | save => App.save
  | search => openPrompt .search
  | rename => openPrompt .title
  | newNote => App.newNote
  | back => App.back
  | faults failing failure => Run.modify fun a => { a with storage := { a.storage with failing, failure } }

def after (a : App) (acts : List Act) : App := acts.foldl (fun a act => (act.run a).state) a

theorem afterAct (a : App) (acts : List Act) (act : Act) :
    a.after (acts ++ [act]) = (act.run (a.after acts)).state := by
  rw [after, List.foldl_append]
  rfl

def leadsFrom (s : Session) (e : KeyEvent) : Option Int :=
  if e.key = "enter".toList && s.editor.mode = .normal then s.linkAtCursor.map Link.linked else none

def Act.leads (a : App) : Act → Option Int
  | key e => if a.prompt.isSome || hostKeys.contains e.name then none else leadsFrom a.current e
  | back => a.trail.head?
  | _ => none

def Act.asks : Act → Bool
  | key _ | back => true
  | _ => false

theorem keptFollow (id : Int) (remember : Bool) : Run.Keeps Kept (follow id remember) := by
  intro a kept
  cases opened : a.session with
  | none =>
    have still : (follow id remember).After a fun _ b => Kept b := by
      unfold follow
      refine Run.afterBindEnds (Run.endsGet.mpr ?_)
      rw [opened]
      exact kept
    exact still
  | some s =>
    have done := followAfter kept opened id remember
    unfold Run.After at done
    cases given : leftBy a.storage s with
    | none =>
      rw [given] at done
      exact done.1
    | some left =>
      rw [given] at done
      obtain ⟨b, -, arrives⟩ := done
      exact arrives.kept

theorem backState (a : App) : (back a).state =
    match a.trail with
    | [] => a
    | id :: rest => (follow id false { a with trail := rest }).state := by
  have done : back.After a fun _ b => b =
      match a.trail with
      | [] => a
      | id :: rest => (follow id false { a with trail := rest }).state := by
    unfold back
    refine Run.afterBindEnds (Run.endsGet.mpr ?_)
    cases a.trail with
    | nil => rfl
    | cons id rest => rfl
  exact done

theorem keptBack : Run.Keeps Kept back := by
  intro a kept
  rw [backState]
  cases a.trail with
  | nil => exact kept
  | cons id rest => exact keptFollow id false _ (keptCore kept rfl)

def Serves (a : App) (s : Session) (b : App) : Prop :=
  b.storage = a.storage ∧ ∃ t, b.session = some t ∧ (t = s ∨ ∃ input : Session.Input, t = (input.run s).state)

theorem servesStill {a b : App} {s : Session} (opened : a.session = some s)
    (same : b.core = a.core) : Serves a s b :=
  ⟨congrArg (·.2.1) same, s, (congrArg Prod.fst same).trans opened, .inl rfl⟩

theorem servesKept {a b : App} (kept : Kept a) {s : Session} (opened : a.session = some s)
    (serves : Serves a s b) : Kept b := by
  obtain ⟨storage, t, session, rfl | ⟨input, rfl⟩⟩ := serves
  · refine ⟨storage ▸ kept.tables, fun u opened' => storage ▸ kept.current u ?_⟩
    exact opened.trans (session.symm.trans opened')
  · exact keptTask kept opened (.input input) session storage

theorem cancelServes {a : App} {s : Session} (opened : a.session = some s) :
    (closePrompt true).After a fun _ b => Serves a s b := by
  have hidden : Run.Keeps (Serves a s) (Run.modify fun a : App => { a with promptShown := false }) :=
    fun _ serves => serves
  unfold closePrompt
  refine Run.afterBindEnds (Run.endsGet.mpr (Run.afterBindEnds (Run.endsPut.mpr ?_)))
  split
  · have cancelled : Serves a s (onSession Session.cancelLink { a with prompt := none }).state := by
      refine ⟨rfl, _, rfl, .inr ⟨.cancel, ?_⟩⟩
      rw [current, opened, Option.getD_some]
      rfl
    exact Run.keptBind cancelled fun _ => Run.keepsBind (fun _ serves => serves) fun _ => hidden
  · exact servesStill opened rfl

theorem servesKey {a b : App} {s : Session} {name : Text} {modifiers : List Text}
    (shows : Shows a (Session.key name modifiers s).state b) : Serves a s b :=
  ⟨congrArg (·.2.1) shows.1, _, shows.session,
    .inr ⟨.key name modifiers, (Run.ignoredState _ s).symm⟩⟩

theorem sessionKeyAfter {a : App} {s : Session} (opened : a.session = some s) (e : KeyEvent) :
    (sessionKey e).After a fun _ b =>
      match leadsFrom s e with
      | none => Shows a (Session.key e.key [] s).state b
      | some id => (follow id true).After a fun _ c => b = c := by
  have here := currentOpen opened
  have served : (do let _ ← host.key e.key []; pure true : Run App Bool).After a fun _ b =>
      Shows a (Session.key e.key [] s).state b := by
    rw [Run.After, Run.answeredState, ← here]
    exact hostKeyAfter e.key [] a
  have followed : ∀ id, (do follow id true; pure true : Run App Bool).After a fun _ b =>
      (follow id true).After a fun _ c => b = c := fun id => Run.answeredState (follow id true) true a
  unfold sessionKey leadsFrom
  refine Run.afterBindEnds (Run.endsGet.mpr ?_)
  rw [here]
  dsimp only
  cases s.linkAtCursor with
  | none =>
    rw [Option.map_none, ite_self]
    exact served
  | some link =>
    cases decide (e.key = "enter".toList) && decide (s.editor.mode = .normal) with
    | true => exact followed link.linked
    | false => exact served

theorem keyAfter {a : App} {s : Session} (opened : a.session = some s) (e : KeyEvent) :
    (key e).After a fun _ b =>
      match (Act.key e).leads a with
      | none => Serves a s b
      | some id => (follow id true).After a fun _ c => b = c := by
  have still := servesStill opened (rfl : a.core = a.core)
  have here := currentOpen opened
  unfold key Act.leads
  refine Run.afterBindEnds (Run.endsGet.mpr ?_)
  rw [if_neg (by simp [opened]), here]
  dsimp only
  cases a.prompt.isSome with
  | true =>
    rw [Bool.true_or, if_pos rfl, if_pos rfl]
    split
    · rw [Run.After, Run.answeredState]
      exact cancelServes opened
    · exact still
  | false =>
    rw [Bool.false_or, if_neg Bool.false_ne_true]
    cases hostKeys.contains e.name with
    | true => exact still
    | false =>
      refine Run.afterMono (sessionKeyAfter opened e) fun _ b post => ?_
      cases leads : leadsFrom s e with
      | none =>
        rw [leads] at post
        exact servesKey post
      | some id =>
        rw [leads] at post
        exact post

theorem askState {a : App} {s : Session} (opened : a.session = some s) {act : Act} (asks : act.asks = true) :
    match act.leads a with
    | none => Serves a s (act.run a).state
    | some id => ∃ remember b, b.core = a.core ∧ (act.run a).state = (follow id remember b).state := by
  cases act with
  | key e =>
    have done := keyAfter opened e
    have same : (Act.run (.key e) a).state = (key e a).state := Run.ignoredState (key e) a
    rw [same]
    unfold Run.After at done
    cases leads : (Act.key e).leads a with
    | none =>
      rw [leads] at done
      exact done
    | some id =>
      rw [leads] at done
      exact ⟨true, a, rfl, done⟩
  | back =>
    have same : (Act.back.run a).state = (back a).state := rfl
    rw [same, backState, Act.leads]
    cases a.trail with
    | nil => exact servesStill opened rfl
    | cons id rest => exact ⟨false, { a with trail := rest }, rfl, rfl⟩
  | mount | submit | save | search | rename | newNote | faults => contradiction

theorem keptKey (e : KeyEvent) : Run.Keeps Kept (Act.key e).run := by
  intro a kept
  cases opened : a.session with
  | none =>
    have still : (key e).After a fun _ b => Kept b := by
      unfold key
      refine Run.afterBindEnds (Run.endsGet.mpr ?_)
      rw [opened]
      exact kept
    exact (Run.ignoredState (key e) a).symm ▸ still
  | some s =>
    have done := askState opened (rfl : (Act.key e).asks = true)
    cases leads : (Act.key e).leads a with
    | none =>
      rw [leads] at done
      exact servesKept kept opened done
    | some id =>
      rw [leads] at done
      obtain ⟨remember, b, same, state⟩ := done
      exact state ▸ keptFollow id remember b (keptCore kept same)

theorem keptAct (act : Act) : Run.Keeps Kept act.run := by
  cases act with
  | mount => exact keptMount
  | key e => exact keptKey e
  | submit value => exact keptSubmit value
  | save => exact keptSave
  | search => exact keptOpenPrompt .search
  | rename => exact keptOpenPrompt .title
  | newNote => exact keptNewNote
  | back => exact keptBack
  | faults failing failure => exact fun a kept => ⟨kept.tables, kept.current⟩

theorem keptAfter {a : App} (kept : Kept a) (acts : List Act) : Kept (a.after acts) := by
  induction acts generalizing a with
  | nil => exact kept
  | cons act rest ih => exact ih (keptAct act a kept)

theorem keptShut {a : App} (tables : a.storage.committed.Sound) (shut : a.session = none) : Kept a where
  tables := tables
  current s opened := by
    rw [shut] at opened
    contradiction

/- Another note is opened, or at least the session is as it is left; it stays as it was only if its changed
text could not be saved. Loading the note that is left gives its text. It gives the title and the links
too just where they were saved with a changed text, or were in the tables already. -/
def Followed (before : Storage) (s : Session) (id : Int) (later : App) : Prop :=
  match leftBy before s with
  | none => later.session = some s
  | some left =>
    (later.session = some left ∨ ∃ t, later.session = some t ∧ t.noteId = some id) ∧
      ∀ n, left.noteId = some n → ∀ maxHistory, (Notebook.load maxHistory n).Ends later.storage
        fun t _ => t.noteId = some n ∧ t.text = s.text ∧
          (Text.strip t.title = Text.strip s.title ∧ t.marks = s.marks ↔
            s.isDirty = true ∨ s.Settled before.committed)

theorem followedKept {a : App} (kept : Kept a) {s : Session} (opened : a.session = some s) (id : Int)
    (remember : Bool) : (follow id remember).After a fun _ c => Followed a.storage s id c := by
  refine Run.afterMono (followAfter kept opened id remember) ?_
  intro _ c post
  unfold Followed
  cases given : leftBy a.storage s with
  | none =>
    rw [given] at post
    exact post.2
  | some left =>
    rw [given] at post
    obtain ⟨b, ready, arrives⟩ := post
    refine ⟨arrives.session, fun n bound maxHistory => ?_⟩
    have current : left.Current c.storage.committed :=
      arrives.committed ▸ ready.kept.current left ready.session
    refine Run.endsMono (Session.recallEnds arrives.kept.tables current ready.clean bound maxHistory) ?_
    rintro t _ ⟨noteId, text, recalled⟩
    rw [ready.title, ready.marks, arrives.committed, ready.settled] at recalled
    exact ⟨noteId, text.trans ready.text, recalled⟩

/- Whatever has happened since the app was started, a link that is followed, and going back, do this; any
other key goes to the session at most. -/
theorem followRecalls {a : App} (tables : a.storage.committed.Sound) (shut : a.session = none)
    (acts : List Act) {s : Session} (opened : (a.after acts).session = some s) {act : Act}
    (asks : act.asks = true) :
    match act.leads (a.after acts) with
    | none => Serves (a.after acts) s (a.after (acts ++ [act]))
    | some id => Followed (a.after acts).storage s id (a.after (acts ++ [act])) := by
  have kept := keptAfter (keptShut tables shut) acts
  rw [afterAct]
  generalize a.after acts = b at opened kept
  have done := askState opened asks
  cases leads : act.leads b with
  | none =>
    rw [leads] at done
    exact done
  | some id =>
    rw [leads] at done
    obtain ⟨remember, c, same, state⟩ := done
    have storage : c.storage = b.storage := congrArg (·.2.1) same
    rw [state, ← storage]
    exact followedKept (keptCore kept same) ((congrArg Prod.fst same).trans opened) id remember

def leading : App where
  storage := Workspace.leading
  maxHistory := 100
  initialNote := some 1
  hasWidgets := false

def pressEnter : KeyEvent := ⟨"enter".toList, none⟩

/- The note that is left has been given another title, which does not count as a change. -/
def retitled : List Act := [.mount, .key pressEnter, .rename, .submit ['c']]

theorem renameForgotten : leading.storage.committed.Sound ∧ leading.session = none ∧ leading.trail = [] ∧
    Act.back.asks = true ∧ Act.back.leads (leading.after retitled) = some 1 ∧
    ∃ s, (leading.after retitled).session = some s ∧ s.title = ['c'] ∧
      (Notebook.load 100 2).Ends (leading.after (retitled ++ [.back])).storage fun t _ =>
        t.text = s.text ∧ ¬ (Text.strip t.title = Text.strip s.title ∧ t.marks = s.marks) := by
  have told : ((leading.after retitled).session.map fun s => (s.isDirty, s.noteId, s.title)) =
        some (false, some 2, ['c']) ∧
      (leading.after retitled).storage.committed.noteOf 2 = some ⟨2, ['b'], [], false⟩ ∧
      Act.back.leads (leading.after retitled) = some 1 := by decide +kernel
  obtain ⟨given, stored, leads⟩ := told
  obtain ⟨s, opened, marks⟩ := Option.map_eq_some_iff.mp given
  simp only [Prod.mk.injEq] at marks
  obtain ⟨clean, bound, title⟩ := marks
  have followed := followRecalls Workspace.leadingSound rfl retitled opened (rfl : Act.back.asks = true)
  rw [leads] at followed
  dsimp only at followed
  rw [Followed, leftClean clean] at followed
  refine ⟨Workspace.leadingSound, rfl, rfl, rfl, leads, s, opened, title,
    Run.endsMono (followed.2 2 bound 100) ?_⟩
  rintro t _ ⟨-, text, recalled⟩
  refine ⟨text, fun same => ?_⟩
  rcases recalled.mp same with dirty | settled
  · rw [clean] at dirty
    contradiction
  · have known := settled.2 2 bound
    rw [stored, title] at known
    exact absurd known (by decide)

end ModalNotes.App
