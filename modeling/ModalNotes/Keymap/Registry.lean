import ModalNotes.Keymap.Stroke
import ModalNotes.Run

/-! Keymap registries: named actions, and bindings of strokes to them, at most one per mode and token.
A binding that is refused changes nothing. -/
namespace ModalNotes

structure NamedAction (α : Type) where
  id : Text
  handler : α
  description : Text := []
  deriving DecidableEq, Repr

structure Binding where
  id : Text
  mode : Text
  stroke : Stroke
  actionId : Text
  description : Text := []
  deriving DecidableEq, Repr

namespace NamedAction

def make {α : Type} (id : Text) (handler : Option α) (description : Text) :
    Except Fault (NamedAction α) :=
  if id.isEmpty then .error .emptyActionId
  else match handler with
    | none => .error .noHandler
    | some handler => .ok { id, handler, description }

end NamedAction

namespace Binding

def make (id mode : Text) (stroke : Stroke) (actionId description : Text) : Except Fault Binding :=
  if id.isEmpty then .error .emptyBindingId
  else if mode.isEmpty then .error .emptyBindingMode
  else if actionId.isEmpty then .error .emptyBindingAction
  else .ok { id, mode, stroke, actionId, description }

def forKey (mode key actionId description : Text) : Except Fault Binding := do
  let stroke ← Stroke.parse key
  make (mode ++ '.' :: stroke.token) mode stroke actionId description

def slot (b : Binding) : Text × Text := (b.mode, b.stroke.token)

end Binding

structure Registry (α : Type) where
  actions : Table Text (NamedAction α) := {}
  bindings : Table Text Binding := {}
  slots : Table (Text × Text) Text := {}
  revision : Nat := 0
  deriving DecidableEq, Repr

namespace Registry

variable {α : Type}

def getAction (r : Registry α) (id : Text) : Except Fault (NamedAction α) :=
  match r.actions.get? id with
  | some action => .ok action
  | none => .error (.unknownAction id)

def getBinding (r : Registry α) (id : Text) : Except Fault Binding :=
  match r.bindings.get? id with
  | some binding => .ok binding
  | none => .error (.unknownBinding id)

def registerAction (action : NamedAction α) (replacing : Bool) : Run (Registry α) Unit := do
  let r ← Run.get
  if r.actions.contains action.id && !replacing then Run.fail (.actionTaken action.id)
  else Run.put { r with actions := r.actions.put action.id action }

def drop (r : Registry α) (b : Binding) : Registry α :=
  { r with
    bindings := r.bindings.erase b.id
    slots := if r.slots.get? b.slot = some b.id then r.slots.erase b.slot else r.slots }

def conflict? (r : Registry α) (b : Binding) : Option Binding := do
  let holder ← r.slots.get? b.slot
  if holder = b.id then none else r.bindings.get? holder

def bindingSpan (b : Binding) : Span :=
  Span.make Logger.root "keymaps::bind".toList "keymaps".toList
    [("binding_id".toList, .text b.id), ("mode".toList, .text b.mode)]

def bindingNotes (r : Except Fault Unit) : List (Text × Value) :=
  match r with
  | .error (.slotTaken _ _ holder) => [("conflict".toList, .text holder)]
  | _ => []

/-- Binds a stroke; when replacing, whatever held its slot or its id is dropped. -/
def registerBinding (b : Binding) (replacing : Bool) : Run (Registry α) Unit :=
  Run.spannedWith (bindingSpan b) bindingNotes do
    let r ← Run.get
    let conflict := r.conflict? b
    if !r.actions.contains b.actionId then
      Run.fail (.bindingToUnknownAction b.id b.actionId)
    else match replacing, conflict with
      | false, some holder => Run.fail (.slotTaken b.stroke.token b.mode holder.id)
      | _, _ =>
        if !replacing && r.bindings.contains b.id then Run.fail (.bindingTaken b.id)
        else
          let stale := conflict.toList ++ (r.bindings.get? b.id).toList
          let cleared := stale.foldl drop r
          Run.put { cleared with
            bindings := cleared.bindings.put b.id b
            slots := cleared.slots.put b.slot b.id
            revision := cleared.revision + 1 }

def unregisterBinding (id : Text) : Run (Registry α) (Option Binding) := do
  let r ← Run.get
  match r.bindings.get? id with
  | none => pure none
  | some b =>
    let cleared := r.drop b
    Run.put { cleared with revision := cleared.revision + 1 }
    pure (some b)

def lookup (r : Registry α) (mode token : Text) : Option (Binding × NamedAction α) := do
  let id ← r.slots.get? (mode, token)
  let binding ← r.bindings.get? id
  let action ← r.actions.get? binding.actionId
  some (binding, action)

def bindingsIn (r : Registry α) (mode : Option Text) : List Binding :=
  r.bindings.values.filter fun b => mode.all (· == b.mode)

def modes (r : Registry α) : List Text :=
  (r.slots.keys.map Prod.fst).eraseDups.mergeSort Text.atMost

end Registry

end ModalNotes
