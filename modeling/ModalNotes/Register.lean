import ModalNotes.Table
import ModalNotes.Text.Basic

/-! Registers: named places for cut and copied text. The unnamed register follows every write. -/
namespace ModalNotes

structure Register where
  text : Text := []
  kind : Text := "character".toList
  deriving DecidableEq, Repr

namespace Register

def linewise (text : Text) : Register := ⟨text, "line".toList⟩

def isLinewise (r : Register) : Bool := r.kind == "line".toList

end Register

abbrev RegisterBank := Table Text Register

namespace RegisterBank

def unnamed : Text := ['"']

def fresh : RegisterBank := ⟨[(unnamed, {})]⟩

def read (b : RegisterBank) (name : Text) : Register := (b.get? name).getD {}

def write (b : RegisterBank) (name : Text) (value : Register) : RegisterBank :=
  (b.put name value).put unnamed value

end RegisterBank

end ModalNotes
