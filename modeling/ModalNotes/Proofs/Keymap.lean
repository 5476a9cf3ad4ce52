import ModalNotes.Mode
import ModalNotes.Proofs.Keymap.Loaded

/-! What the standard keymap has, and which actions in which mode. Nothing in its tables is refused. Insert mode
does not arm commands, and visual mode neither changes text, but for a cut that ends it, nor arms a command
that does. -/
namespace ModalNotes

namespace Mode

def allows : Mode → Action → Bool
  | _, .exitToNormal => true
  | .insert, .newline | .insert, .backspace | .insert, .deleteForward | .insert, .tab
  | .insert, .arrow _ => true
  | .insert, _ => false
  | _, .move _ | _, .lineHead | _, .lineEnd | _, .bottom => true
  | _, .arm .goto _ | _, .arm .findForward _ | _, .arm .findBackward _ => true
  | .visual, .copy | .visual, .cut | .visual, .align _ | .visual, .link => true
  | .visual, _ => false
  | .normal, .arm .delete _ | .normal, .arm .yank _ | .normal, .arm .primeHop _ => true
  | .normal, .paste | .normal, .undo | .normal, .redo | .normal, .deleteNextChar
  | .normal, .deleteToLineEnd | .normal, .changeToLineEnd | .normal, .searchNext
  | .normal, .searchPrevious | .normal, .enterInsert | .normal, .append | .normal, .appendLineEnd
  | .normal, .insertLineHead | .normal, .openBelow | .normal, .openAbove | .normal, .enterVisual
  | .normal, .enterVisualLine => true
  | .normal, _ => false

def all : List Mode := [.insert, .normal, .visual]

theorem memAll (mode : Mode) : mode ∈ all := by cases mode <;> decide

end Mode

namespace Keymap

open Registry (Apart)

theorem actionsDistinct : (actions.map NamedAction.id).Nodup := by decide +kernel

theorem bindingsApart : bindings.Pairwise Apart := by decide +kernel

theorem bindingsServed : ∀ b ∈ bindings, ∃ a ∈ actions.find? (NamedAction.id · == b.actionId),
    ∀ mode ∈ Mode.all, mode.name = b.mode → mode.allows a.handler = true := by decide +kernel

theorem served {b : Binding} (member : b ∈ bindings) : ∃ a ∈ actions, a.id = b.actionId ∧
    ∀ mode : Mode, mode.name = b.mode → mode.allows a.handler = true := by
  obtain ⟨a, found, allowed⟩ := bindingsServed b member
  have id : (a.id == b.actionId) = true := List.find?_some (p := (NamedAction.id · == b.actionId)) found
  exact ⟨a, List.mem_of_find?_eq_some found, beq_iff_eq.mp id, fun mode => allowed mode mode.memAll⟩

structure Loaded (r : Registry Action) : Prop where
  consistent : r.Consistent
  bindings : r.bindings.values = bindings
  actions : r.actions.entries = actions.map fun a => (a.id, a)
  revision : r.revision = Keymap.bindings.length

theorem loads : (load false [] []).Ends {} fun _ r => Loaded r := by
  unfold load
  rw [Run.endsBind]
  have distinct : (({} : Registry Action).actions.keys ++ actions.map NamedAction.id).Nodup :=
    actionsDistinct
  refine Run.endsMono (Registry.actsAll Registry.consistentEmpty distinct false) ?_
  rintro _ r ⟨consistent, none, acts, new⟩
  have every : bindings.filter (fun b => !([] : List Text).contains b.id) = bindings :=
    List.filter_eq_self.mpr fun _ _ => rfl
  rw [every, Run.endsBind]
  refine Run.endsMono (Registry.registersAll consistent ?_ ?_ false) ?_
  · intro b member
    obtain ⟨a, inside, id, -⟩ := served member
    rw [Table.keys, acts]
    exact List.mem_map.mpr ⟨(a.id, a), List.mem_map.mpr ⟨a, inside, rfl⟩, id⟩
  · rw [none]
    exact bindingsApart
  · rintro _ later ⟨consistent', same, values, revision⟩
    refine Run.endsPure.mpr ⟨consistent', ?_, ?_, ?_⟩
    · rw [values, none]
      rfl
    · rw [same, acts]
      rfl
    · rw [revision, new]
      exact Nat.zero_add _

theorem standardLoaded : Loaded standard.state := by
  obtain ⟨_, -, loaded⟩ := loads
  exact loaded

def tables : Registry Action where
  actions := ⟨actions.map fun a => (a.id, a)⟩
  bindings := ⟨bindings.map fun b => (b.id, b)⟩
  slots := ⟨bindings.map fun b => (b.slot, b.id)⟩
  revision := bindings.length

theorem loadedTables {r : Registry Action} (loaded : Loaded r) : r = tables := by
  obtain ⟨consistent, values, acts, revision⟩ := loaded
  have ids : r.bindings.entries = bindings.map fun b => (b.id, b) := by
    rw [← values, Table.values, List.map_map]
    refine (List.map_id _).symm.trans (List.map_congr_left fun e member => ?_)
    exact Prod.ext (consistent.keyed e member) rfl
  have places := consistent.slots
  rw [ids, List.map_map] at places
  obtain ⟨⟨_⟩, ⟨_⟩, ⟨_⟩, _⟩ := r
  cases acts
  cases ids
  cases places
  cases revision
  rfl

/- Loading the tables leaves just that. Keys are evaluated on it faster, as nothing is compared on loading. -/
theorem standardTables : standard.state = tables := loadedTables standardLoaded

theorem standardFound {mode token : Text} {b : Binding} {action : NamedAction Action} :
    standard.state.lookup mode token = some (b, action) ↔
      b ∈ bindings ∧ b.slot = (mode, token) ∧ action ∈ actions ∧ action.id = b.actionId := by
  have keys : standard.state.actions.keys = actions.map NamedAction.id := by
    rw [Table.keys, standardLoaded.actions, List.map_map]
    rfl
  have served : standard.state.actions.get? b.actionId = some action ↔
      action ∈ actions ∧ action.id = b.actionId := by
    constructor
    · intro found
      have inside := Table.memOfGet found
      rw [standardLoaded.actions] at inside
      obtain ⟨a, member, same⟩ := List.mem_map.mp inside
      obtain ⟨id, rfl⟩ := Prod.mk.inj same
      exact ⟨member, id⟩
    · rintro ⟨member, same⟩
      refine Table.getOfMem (keys ▸ actionsDistinct) ?_
      rw [standardLoaded.actions, ← same]
      exact List.mem_map.mpr ⟨action, member, rfl⟩
  rw [Registry.lookupSome standardLoaded.consistent, standardLoaded.bindings, served]

theorem standardUnbound {mode token : Text} (free : ∀ b ∈ bindings, b.slot ≠ (mode, token)) :
    standard.state.lookup mode token = none := by
  rw [Registry.lookupNone standardLoaded.consistent, standardLoaded.bindings]
  exact free

theorem standardAllows {mode : Mode} {token : Text} {binding : Binding} {action : NamedAction Action}
    (h : standard.state.lookup mode.name token = some (binding, action)) :
    mode.allows action.handler = true := by
  obtain ⟨bound, slot, -⟩ := standardFound.mp h
  obtain ⟨a, inside, id, allowed⟩ := served bound
  cases h.symm.trans (standardFound.mpr ⟨bound, slot, inside, id⟩)
  exact allowed mode (congrArg Prod.fst slot).symm

theorem lineSelections : ∀ a ∈ actions, a.handler = .enterVisualLine → ∀ b ∈ bindings, a.id = b.actionId →
    b.slot = (Mode.normal.name, ['V']) := by decide +kernel

theorem lineSelected {mode : Mode} {token : Text} {b : Binding} {action : NamedAction Action}
    (found : standard.state.lookup mode.name token = some (b, action))
    (selects : action.handler = .enterVisualLine) : mode = .normal ∧ token = ['V'] := by
  obtain ⟨bound, slot, inside, id⟩ := standardFound.mp found
  obtain ⟨name, same⟩ := Prod.mk.inj (slot.symm.trans (lineSelections action inside selects b bound id))
  refine ⟨?_, same⟩
  revert name
  cases mode <;> decide

def Binds (mode : Mode) (token : Text) (handler : Action) : Prop :=
  ∃ b ∈ bindings, b.slot = (mode.name, token) ∧ ∃ a ∈ actions, a.id = b.actionId ∧ a.handler = handler

instance (mode : Mode) (token : Text) (handler : Action) : Decidable (Binds mode token handler) :=
  inferInstanceAs (Decidable (∃ b ∈ bindings, _))

theorem bindsFound {mode : Mode} {token : Text} {handler : Action} (binds : Binds mode token handler) :
    ∃ b a, standard.state.lookup mode.name token = some (b, a) ∧ a.handler = handler := by
  obtain ⟨b, bound, slot, a, inside, id, same⟩ := binds
  exact ⟨b, a, standardFound.mpr ⟨bound, slot, inside, id⟩, same⟩

end Keymap

end ModalNotes
