import ModalNotes.Fault
import ModalNotes.Text.Blank
import ModalNotes.Text.Case

/-! Key strokes: a key with its modifiers in one fixed order, and the token that names the stroke. -/
namespace ModalNotes

structure Stroke where
  key : Text
  modifiers : List Text := []
  deriving DecidableEq, Repr

namespace Stroke

def modifierOrder : List Text := ["ctrl".toList, "alt".toList, "shift".toList]

def normalize (modifiers : List Text) : List Text :=
  let given := ((modifiers.map Text.strip).filter (!·.isEmpty)).map Text.lower
  modifierOrder.filter (given.contains ·) ++
    (given.eraseDups.filter (!modifierOrder.contains ·)).mergeSort Text.atMost

def make (key : Text) (modifiers : List Text) : Except Fault Stroke :=
  if key.isEmpty then .error .emptyKey else .ok ⟨key, normalize modifiers⟩

def token (s : Stroke) : Text := Text.joinWith ['+'] (s.modifiers ++ [s.key])

/- A plus behind all others is a key; one before that separates. -/
def separates (token : Text) : Bool :=
  1 < token.length && (token.reverse.dropWhile (· == '+')).contains '+'

def parse (token : Text) : Except Fault Stroke :=
  if separates token then
    let pieces := Text.splitOn '+' token
    let key := pieces.getLastD []
    make (if key.isEmpty then ['+'] else key) pieces.dropLast
  else make token []

end Stroke

end ModalNotes
