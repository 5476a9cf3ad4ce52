import ModalNotes.Notebook
import ModalNotes.View.Screen
import ModalNotes.View.Styled

/-! The app: one session on a screen with a status line and a prompt. Enter on a link opens the note it
leads to, and a stack of notes leads back. -/
namespace ModalNotes

inductive Prompt
  | link
  | search
  | title
  deriving DecidableEq, Repr

namespace Prompt

def name : Prompt → Text
  | link => "link".toList
  | search => "search".toList
  | title => "title".toList

def question : Prompt → Text
  | link => "Link to note titled:".toList
  | search => "Search for:".toList
  | title => "Note title:".toList

end Prompt

structure App where
  storage : Storage
  maxHistory : Int
  initialNote : Option Int := none
  /-- Without widgets nothing is drawn. -/
  hasWidgets : Bool := true
  session : Option Session := none
  status : Text := []
  prompt : Option Prompt := none
  /-- The notes to go back to, the last one first. -/
  trail : List Int := []
  title : Text := "LinkpadApp".toList
  view : Option Styled := none
  promptShown : Bool := false
  deriving DecidableEq, Repr

namespace App

variable {α : Type}

def blankSession : Session := Session.ofBuffer {} {} [] {}

def current (a : App) : Session := a.session.getD blankSession

def setStatus (status : Text) : Run App Unit := Run.modify fun a => { a with status }

def openPrompt (prompt : Prompt) : Run App Unit :=
  Run.modify fun a => { a with
    prompt := some prompt, status := prompt.question, promptShown := a.hasWidgets }

def draw (m : Picture) : Run App Unit := do
  let a ← Run.get
  if a.hasWidgets then
    let view ← Run.ofExcept m.styled
    Run.put { a with view := some view }

def host : Host App where
  view := current
  update := fun session a => { a with session := some session }
  deliver
    | .buffer m => draw m
    | .status s => setStatus s
    | .linkTarget => openPrompt .link
    | .log _ => pure ()

def onSession (m : Run Session α) : Run App α :=
  Run.on current (fun session a => { a with session := some session }) m

def onStorage (m : Run Storage α) : Run App α :=
  Run.on (·.storage) (fun storage a => { a with storage }) m

def onDesk (m : Run Desk α) : Run App α :=
  Run.on (fun a => { session := a.current, storage := a.storage })
    (fun d a => { a with session := some d.session, storage := d.storage }) m

def untitled : Text := "linkpad".toList

def refreshTitle : Run App Unit := Run.modify fun a =>
  match a.session with
  | none => a
  | some s => { a with title := if s.title.isEmpty then untitled else s.title }

def isStorageFault : Fault → Bool
  | .noteNotFound _ | .titleTaken _ | .requestFailed _ _ => true
  | _ => false

def mount : Run App Unit := do
  let a ← Run.get
  let blank ← Session.fresh [] [] a.maxHistory
  let session ← match a.initialNote with
    | none => pure blank
    | some id =>
      match ← Run.attempt (onStorage (Notebook.load a.maxHistory id)) with
      | .ok session => pure session
      | .error fault =>
        if isStorageFault fault then
          setStatus fault.message
          pure blank
        else Run.fail fault
  host.attach session
  refreshTitle

def closePrompt (cancelled : Bool) : Run App Unit := do
  let a ← Run.get
  Run.put { a with prompt := none }
  if cancelled && a.prompt == some .link && a.session.isSome then
    onSession Session.cancelLink
    setStatus "Link cancelled".toList
  Run.modify fun a => { a with promptShown := false }

/- Opens a note in place of the current one, which is saved first if its text has changed. -/
def follow (id : Int) (remember : Bool) : Run App Unit := do
  let a ← Run.get
  if a.session.isNone then pure ()
  else
    let kept ← if a.current.isDirty then onDesk Notebook.save
      else pure { ok := true, message := [] }
    if !kept.ok then setStatus kept.message
    else
      match ← Run.attempt (onStorage (Notebook.load a.maxHistory id)) with
      | .error fault =>
        if isStorageFault fault then setStatus fault.message else Run.fail fault
      | .ok session =>
        let left := (← Run.get).current.noteId
        if remember then
          Run.modify fun a => { a with trail := left.toList ++ a.trail }
        host.attach session
        refreshTitle

def hostKeys : List Text := [
  "ctrl+q".toList, "ctrl+c".toList, "ctrl+s".toList, "ctrl+f".toList, "ctrl+t".toList,
  "ctrl+n".toList, "ctrl+b".toList]

structure KeyEvent where
  name : Text
  character : Option Text
  deriving DecidableEq, Repr

def KeyEvent.key (e : KeyEvent) : Text :=
  match e.character with
  | some c => if !c.isEmpty && c.all Text.isPrintable then c else e.name
  | none => e.name

def sessionKey (e : KeyEvent) : Run App Bool := do
  let s := (← Run.get).current
  match s.linkAtCursor with
  | some link =>
    if e.key = "enter".toList && s.editor.mode = .normal then follow link.linked true
    else
      let _ ← host.key e.key []
  | none =>
    let _ ← host.key e.key []
  pure true

def key (e : KeyEvent) : Run App Bool := do
  let a ← Run.get
  if a.session.isNone then pure false
  else if a.prompt.isSome then
    if e.name = "escape".toList then
      closePrompt true
      pure true
    else pure false
  else if hostKeys.contains e.name then pure false
  else sessionKey e

def isLinkFault (fault : Fault) : Bool :=
  match fault with
  | .untitledTarget => true
  | fault => isStorageFault fault

def submitLink (value : Text) : Run App Unit := do
  match ← Run.attempt (onDesk (Notebook.linkTo value)) with
  | .ok none => pure ()
  | .ok (some link) => setStatus ("Linked to note ".toList ++ Text.ofInt link.linked)
  | .error fault =>
    if isLinkFault fault then
      onSession Session.cancelLink
      setStatus ("Link not created: ".toList ++ fault.message)
    else Run.fail fault

def submitSearch (value : Text) : Run App Unit := do
  if ← onSession (Session.search (some value)) then pure ()
  else setStatus ("Not found: ".toList ++ value)

def submit (value : Text) : Run App Unit := do
  let a ← Run.get
  closePrompt false
  if a.session.isNone then pure ()
  else match a.prompt with
    | none => pure ()
    | some prompt =>
      match prompt with
      | .link => submitLink value
      | .search => submitSearch value
      | .title =>
        onSession (Run.modify fun s => { s with title := Text.strip value })
        refreshTitle
      host.refresh

def save : Run App Unit := do
  let a ← Run.get
  if a.session.isNone then pure ()
  else
    let outcome ← onDesk Notebook.save
    setStatus outcome.message
    let a ← Run.get
    if !outcome.ok && a.current.title.isEmpty then openPrompt .title
    refreshTitle

def newNote : Run App Unit := do
  let a ← Run.get
  if a.session.isNone then pure ()
  else
    let session ← Session.fresh [] [] a.maxHistory
    host.attach session
    refreshTitle

def back : Run App Unit := do
  let a ← Run.get
  match a.trail with
  | [] => pure ()
  | id :: rest =>
    Run.put { a with trail := rest }
    follow id false

def hostAction? (key : Text) : Option (Run App Unit) :=
  [("ctrl+s".toList, save), ("ctrl+f".toList, openPrompt .search),
    ("ctrl+t".toList, openPrompt .title), ("ctrl+n".toList, newNote),
    ("ctrl+b".toList, back)].lookup key

def enter (line : Text) : Run App Unit := do
  let a ← Run.get
  if a.prompt.isSome && line ≠ "escape".toList then submit line
  else match hostAction? line with
    | some action => action
    | none =>
      let _ ← key { name := line, character := if line.length = 1 then some line else none }

end App

end ModalNotes
