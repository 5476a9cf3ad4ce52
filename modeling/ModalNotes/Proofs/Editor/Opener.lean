import ModalNotes.Proofs.Keymap

/-! What the keys of the standard keymap arm. Whatever is bound, the actions are those that were registered
first, and each of them arms its command with the character that opens it. -/
namespace ModalNotes

def Command.opener : Command → Text
  | .delete => ['d']
  | .yank => ['y']
  | .goto => ['g']
  | .findForward => ['f']
  | .findBackward => ['F']
  | .none | .primeHop | .executeHop => []

def Action.opens : Action → Bool
  | .arm command opener => opener == command.opener
  | _ => true

namespace Keymap

theorem actionsOpen : ∀ a ∈ actions, a.handler.opens = true := by decide

theorem standardOpens {mode token : Text} {binding : Binding} {action : NamedAction Action}
    (h : standard.state.lookup mode token = some (binding, action)) : action.handler.opens = true :=
  actionsOpen action (standardFound.mp h).2.2.1

end Keymap

end ModalNotes
