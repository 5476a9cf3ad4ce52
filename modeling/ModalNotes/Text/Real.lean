import ModalNotes.Text.Integer

/-! Real numbers as text: a sign, digits with a point before, among or behind them, and an exponent; or a
name for what no digits can tell. -/
namespace ModalNotes.Text

def dropDigits : Text → Text
  | '_' :: c :: rest => if isDecimal c then dropDigits rest else '_' :: c :: rest
  | c :: rest => if isDecimal c then dropDigits rest else c :: rest
  | [] => []

def afterDigits? : Text → Option Text
  | c :: rest => if isDecimal c then some (dropDigits rest) else none
  | [] => none

def dropSign : Text → Text
  | '+' :: rest | '-' :: rest => rest
  | s => s

def afterMantissa? (s : Text) : Option Text :=
  match afterDigits? s, s with
  | some ('.' :: rest), _ => some ((afterDigits? rest).getD rest)
  | some rest, _ => some rest
  | none, '.' :: rest => afterDigits? rest
  | none, _ => none

def isExponent : Text → Bool
  | [] => true
  | c :: rest => (c == 'e' || c == 'E') && afterDigits? (dropSign rest) == some []

def unmeasured : List Text := ["inf".toList, "infinity".toList, "nan".toList]

def isReal (s : Text) : Bool :=
  let s := dropSign (stripNumber s)
  unmeasured.contains (s.map Char.toLower) || (afterMantissa? s).any isExponent

end ModalNotes.Text
