import ModalNotes.Text.Basic

/-! The editing modes, and the commands that wait for a second key. -/
namespace ModalNotes

inductive Mode
  | insert
  | normal
  | visual
  deriving DecidableEq, Repr

namespace Mode

def name : Mode → Text
  | insert => "insert".toList
  | normal => "normal".toList
  | visual => "visual".toList

def label : Mode → Text
  | insert => "INSERT".toList
  | normal => "NORMAL".toList
  | visual => "VISUAL".toList

end Mode

inductive Command
  | none
  | delete
  | yank
  | goto
  | findForward
  | findBackward
  | primeHop
  | executeHop
  deriving DecidableEq, Repr

namespace Command

def name : Command → Text
  | none => "no_command".toList
  | delete => "delete".toList
  | yank => "yank".toList
  | goto => "goto".toList
  | findForward => "find_forward".toList
  | findBackward => "find_backward".toList
  | primeHop => "prime_hop".toList
  | executeHop => "execute_hop".toList

end Command

end ModalNotes
