import ModalNotes.Text.Blank
import ModalNotes.Text.Digit

/-! Whole numbers read from text: blanks around it, one sign, decimal digits of any script, and single
underscores between digits. -/
namespace ModalNotes.Text

/- The four separators below the space are blanks, but none that may stand around a number. -/
def isNumberBlank (c : Char) : Bool := isBlank c && !(0x1c ≤ c.toNat && c.toNat ≤ 0x1f)

/-- Longer numbers are neither read nor written. Of the numbers that a session tells, only the index of a hop is
held against this: a count is told when its last step is done, which no count of that length comes to, and the
ids of anchors and notes come from stored rows of 64 bits, or are counted up from them. -/
def maxDigits : Nat := 4300

def readDigits : Text → List Nat → Option (List Nat)
  | [], back => some back.reverse
  | ['_'], _ => none
  | '_' :: c :: rest, back =>
    match digitValue? c with
    | some d => readDigits rest (d :: back)
    | none => none
  | c :: rest, back =>
    match digitValue? c with
    | some d => readDigits rest (d :: back)
    | none => none

def natOfDigits (digits : List Nat) : Nat := digits.foldl (fun n d => n * 10 + d) 0

def readNumeral? : Text → Option (List Nat)
  | [] => none
  | c :: rest => do
    let d ← digitValue? c
    readDigits rest [d]

def stripNumber (s : Text) : Text :=
  ((s.dropWhile isNumberBlank).reverse.dropWhile isNumberBlank).reverse

def readSigned? (s : Text) : Option (Bool × List Nat) :=
  match stripNumber s with
  | '-' :: rest => (readNumeral? rest).map fun digits => (true, digits)
  | '+' :: rest => (readNumeral? rest).map fun digits => (false, digits)
  | rest => (readNumeral? rest).map fun digits => (false, digits)

def signedOf (negative : Bool) (digits : List Nat) : Int :=
  if negative then -(natOfDigits digits : Int) else natOfDigits digits

def readInt? (s : Text) : Option Int := do
  let (negative, digits) ← readSigned? s
  if digits.length ≤ maxDigits then some (signedOf negative digits) else none

def isWritable (n : Int) : Bool := n.natAbs < Nat.pow 10 maxDigits

end ModalNotes.Text
