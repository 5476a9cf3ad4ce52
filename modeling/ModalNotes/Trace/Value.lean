import ModalNotes.Decimal.Shortest
import ModalNotes.Text.Quoted

/-! The values that log lines carry. At the top of a line a text stands as it is; inside a list or a
record it is quoted. -/
namespace ModalNotes

inductive Value
  | nothing
  | truth (b : Bool)
  | int (n : Int)
  | float (bits : Nat)
  | text (s : Text)
  | list (items : List Value)
  | tuple (items : List Value)
  | record (fields : List (Text × Value))
  deriving Repr, Inhabited

namespace Value

mutual

def inner : Value → Text
  | nothing => "None".toList
  | truth b => if b then "True".toList else "False".toList
  | int n => Text.ofInt n
  | float bits => (Decimal.ofBits bits).text
  | text s => Text.quoted s
  | list items => '[' :: innerList items ++ [']']
  | tuple [item] => '(' :: inner item ++ [',', ')']
  | tuple items => '(' :: innerList items ++ [')']
  | record fields => '\x7b' :: innerFields fields ++ ['\x7d']

def innerList : List Value → Text
  | [] => []
  | [item] => inner item
  | item :: rest => inner item ++ ", ".toList ++ innerList rest

def innerFields : List (Text × Value) → Text
  | [] => []
  | [(key, item)] => Text.quoted key ++ ": ".toList ++ inner item
  | (key, item) :: rest => Text.quoted key ++ ": ".toList ++ inner item ++ ", ".toList ++ innerFields rest

end

def plain : Value → Text
  | text s => s
  | v => v.inner

def nat (n : Nat) : Value := int n

def optional {α : Type} (f : α → Value) : Option α → Value
  | none => nothing
  | some a => f a

end Value

end ModalNotes
