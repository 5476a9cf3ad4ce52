import ModalNotes.Text.Case
import ModalNotes.Text.Printable

/-! Tokens of key presses, as a host reports them: a name and modifiers in any order. -/
namespace ModalNotes.KeyPress

def aliases : List (Text × Text) := [
  ("esc".toList, "escape".toList), ("<esc>".toList, "escape".toList),
  ("return".toList, "enter".toList), ("ctrl+m".toList, "enter".toList),
  ("ctrl+i".toList, "tab".toList), ("ctrl+h".toList, "backspace".toList),
  ("circumflex_accent".toList, ['^']), ("dollar_sign".toList, ['$']),
  ("less_than_sign".toList, ['<']), ("equals_sign".toList, ['=']),
  ("greater_than_sign".toList, ['>']), ("space".toList, [' '])]

def token (key : Text) (modifiers : List Text) : Text :=
  let name := if key.length = 1 then key else Text.lower key
  let held := (modifiers.filter (!·.isEmpty)).map Text.lower
  let full := Text.joinWith ['+'] (held ++ [name])
  (aliases.lookup full).getD full

def isPrintable (token : Text) : Bool :=
  match token with
  | [c] => Text.isPrintable c
  | _ => false

end ModalNotes.KeyPress
