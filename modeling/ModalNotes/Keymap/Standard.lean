import ModalNotes.Editor.Action
import ModalNotes.Keymap.Registry

/-! The standard keymap: every action under its name, and the keys of each mode. -/
namespace ModalNotes.Keymap

def named (id : String) (handler : Action) (description : String) : NamedAction Action :=
  ⟨id.toList, handler, description.toList⟩

def actions : List (NamedAction Action) := [
  named "core.enter_insert" .enterInsert "Enter insert mode",
  named "core.append" .append "Insert after the cursor",
  named "core.append_line_end" .appendLineEnd "Insert at end of line",
  named "core.insert_line_head" .insertLineHead "Insert at line head",
  named "core.open_below" .openBelow "Open a line below and insert",
  named "core.open_above" .openAbove "Open a line above and insert",
  named "core.exit_to_normal" .exitToNormal "Return to normal mode",
  named "core.enter_visual" .enterVisual "Enter visual mode",
  named "core.enter_visual_line" .enterVisualLine "Select the whole line",
  named "motion.left" (.move .back) "",
  named "motion.right" (.move .forward) "",
  named "motion.up" (.move .up) "",
  named "motion.down" (.move .down) "",
  named "motion.word_forward" (.move .wordForward) "",
  named "motion.word_back" (.move .wordBack) "",
  named "motion.line_head" .lineHead "",
  named "motion.line_end" .lineEnd "",
  named "motion.bottom" .bottom "Go to the last line",
  named "edit.paste" .paste "Paste",
  named "edit.undo" .undo "Undo",
  named "edit.redo" .redo "Redo",
  named "edit.delete_next_char" .deleteNextChar "Delete the character under the cursor",
  named "edit.delete_to_line_end" .deleteToLineEnd "Delete to end of line",
  named "edit.change_to_line_end" .changeToLineEnd "Delete to end of line and insert",
  named "edit.search_next" .searchNext "",
  named "edit.search_previous" .searchPrevious "",
  named "operator.delete" (.arm .delete ['d']) "",
  named "operator.yank" (.arm .yank ['y']) "",
  named "operator.goto" (.arm .goto ['g']) "",
  named "operator.find_forward" (.arm .findForward ['f']) "",
  named "operator.find_backward" (.arm .findBackward ['F']) "",
  named "operator.hop" (.arm .primeHop []) "Jump to a two-character match",
  named "visual.copy" .copy "",
  named "visual.cut" .cut "",
  named "visual.align_left" (.align .left) "",
  named "visual.align_center" (.align .center) "",
  named "visual.align_right" (.align .right) "",
  named "visual.link" .link "Link the selection to another note",
  named "insert.newline" .newline "",
  named "insert.backspace" .backspace "",
  named "insert.delete" .deleteForward "",
  named "insert.tab" .tab "",
  named "insert.left" (.arrow .back) "",
  named "insert.right" (.arrow .forward) "",
  named "insert.up" (.arrow .up) "",
  named "insert.down" (.arrow .down) "",
  named "insert.home" (.arrow .lineHead) "",
  named "insert.end" (.arrow .lineEnd) ""]

def motionKeys : List (String × String) := [
  ("h", "motion.left"), ("left", "motion.left"), ("l", "motion.right"), ("right", "motion.right"),
  ("k", "motion.up"), ("up", "motion.up"), ("j", "motion.down"), ("down", "motion.down"),
  ("w", "motion.word_forward"), ("b", "motion.word_back"), ("^", "motion.line_head"),
  ("$", "motion.line_end"), ("G", "motion.bottom"), ("g", "operator.goto"),
  ("f", "operator.find_forward"), ("F", "operator.find_backward")]

def normalKeys : List (String × String) := [
  ("d", "operator.delete"), ("y", "operator.yank"), ("s", "operator.hop"), ("p", "edit.paste"),
  ("u", "edit.undo"), ("r", "edit.redo"), ("x", "edit.delete_next_char"),
  ("D", "edit.delete_to_line_end"), ("C", "edit.change_to_line_end"), ("n", "edit.search_next"),
  ("N", "edit.search_previous"), ("i", "core.enter_insert"), ("a", "core.append"),
  ("A", "core.append_line_end"), ("I", "core.insert_line_head"), ("o", "core.open_below"),
  ("O", "core.open_above"), ("v", "core.enter_visual"), ("V", "core.enter_visual_line")]

def visualKeys : List (String × String) := [
  ("escape", "core.exit_to_normal"), ("v", "core.exit_to_normal"), ("y", "visual.copy"),
  ("x", "visual.cut"), ("<", "visual.align_left"), ("=", "visual.align_center"),
  (">", "visual.align_right"), ("ctrl+l", "visual.link")]

def insertKeys : List (String × String) := [
  ("escape", "core.exit_to_normal"), ("enter", "insert.newline"), ("backspace", "insert.backspace"),
  ("delete", "insert.delete"), ("tab", "insert.tab"), ("left", "insert.left"),
  ("right", "insert.right"), ("up", "insert.up"), ("down", "insert.down"), ("home", "insert.home"),
  ("end", "insert.end")]

def strokeOf (key : Text) : Stroke :=
  match Text.splitOn '+' key with
  | [modifier, key] => ⟨key, [modifier]⟩
  | _ => ⟨key, []⟩

def binding (mode : Mode) (key action : Text) : Binding := {
  id := mode.name ++ '.' :: key
  mode := mode.name
  stroke := strokeOf key
  actionId := action
  description := mode.name ++ ' ' :: key }

def bindingsOf (mode : Mode) (keys : List (String × String)) : List Binding :=
  keys.map fun (key, action) => binding mode key.toList action.toList

def bindings : List Binding :=
  bindingsOf .normal (motionKeys ++ normalKeys) ++ bindingsOf .visual (motionKeys ++ visualKeys) ++
    bindingsOf .insert insertKeys

def forEach {σ α : Type} (f : α → Run σ Unit) : List α → Run σ Unit
  | [] => pure ()
  | a :: rest => do f a; forEach f rest

def load (replacing : Bool) (excluded : List Text) (extra : List Binding) :
    Run (Registry Action) Unit := do
  forEach (Registry.registerAction · replacing) actions
  forEach (Registry.registerBinding · replacing) (bindings.filter (!excluded.contains ·.id))
  forEach (Registry.registerBinding · true) extra

def standard : Outcome (Registry Action) Unit := load false [] [] {}

end ModalNotes.Keymap
