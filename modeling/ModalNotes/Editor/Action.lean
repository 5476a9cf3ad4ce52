import ModalNotes.Buffer.Motion
import ModalNotes.Mode

/-! The actions that keys can be bound to, and the reply to a key. -/
namespace ModalNotes

inductive Action
  | nothing
  | noop
  | enterInsert
  | append
  | appendLineEnd
  | insertLineHead
  | openBelow
  | openAbove
  | exitToNormal
  | enterVisual
  | enterVisualLine
  | move (m : Motion)
  | lineHead
  | lineEnd
  | bottom
  | paste
  | undo
  | redo
  | deleteNextChar
  | deleteToLineEnd
  | changeToLineEnd
  | searchNext
  | searchPrevious
  /-- Arms a command; the opener is typed text unless the command collects its own. -/
  | arm (command : Command) (opener : Text)
  | copy
  | cut
  | align (alignment : Alignment)
  | link
  | newline
  | backspace
  | deleteForward
  | tab
  | arrow (m : Motion)
  deriving DecidableEq, Repr

inductive Status
  | ok
  | pending
  | ignored
  | aborted
  | noop
  deriving DecidableEq, Repr

def Status.name : Status → Text
  | ok => "ok".toList
  | pending => "pending".toList
  | ignored => "ignored".toList
  | aborted => "aborted".toList
  | noop => "noop".toList

structure Reply where
  consumed : Bool := true
  switchTo : Option Mode := none
  command : Option Command := none
  status : Status := .ok
  message : Option Text := none
  deriving DecidableEq, Repr

end ModalNotes
