import ModalNotes.Table
import ModalNotes.Text.Basic

/-! A bus: subscribers of named events, told in the order in which they subscribed. -/
namespace ModalNotes

structure Bus where
  subscribers : Table Text (List Text) := {}
  deriving DecidableEq, Repr

namespace Bus

def of (b : Bus) (event : Text) : List Text := (b.subscribers.get? event).getD []

def subscribe (b : Bus) (event who : Text) : Bus :=
  ⟨b.subscribers.put event (b.of event ++ [who])⟩

def unsubscribe (b : Bus) (event who : Text) : Bus :=
  ⟨b.subscribers.put event ((b.of event).erase who)⟩

def emit {α : Type} (b : Bus) (event : Text) (payload : α) : List (Text × α) :=
  (b.of event).map fun who => (who, payload)

end Bus

end ModalNotes
