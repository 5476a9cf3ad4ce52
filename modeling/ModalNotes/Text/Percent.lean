import ModalNotes.Text.Quoted

/-! Percent encoding: a character outside a safe set is written as the bytes that encode it, each as a
percent sign and two hexadecimal digits. Reading takes such bytes back; bytes that encode no character
become replacement characters, one for each run of bytes that could have begun one. -/
namespace ModalNotes.Text

def encodedBytes (c : Char) : List Nat := (String.singleton c).toUTF8.toList.map UInt8.toNat

def percentByte (b : Nat) : Text := '%' :: (hexDigits 2 b).map Char.toUpper

def percentEncoded (isSafe : Char → Bool) (s : Text) : Text :=
  s.flatMap fun c => if isSafe c then [c] else (encodedBytes c).flatMap percentByte

structure BrokenChar where
  value : Nat
  missing : Nat
  low : Nat := 0x80
  high : Nat := 0xbf
  deriving DecidableEq, Repr

def replacement : Char := '\ufffd'

def firstByte (b : Nat) : Text × Option BrokenChar :=
  if b < 0x80 then ([Char.ofNat b], none)
  else if 0xc2 ≤ b && b < 0xe0 then ([], some { value := b - 0xc0, missing := 1 })
  else if b = 0xe0 then ([], some { value := 0, missing := 2, low := 0xa0 })
  else if b = 0xed then ([], some { value := 13, missing := 2, high := 0x9f })
  else if 0xe1 ≤ b && b < 0xf0 then ([], some { value := b - 0xe0, missing := 2 })
  else if b = 0xf0 then ([], some { value := 0, missing := 3, low := 0x90 })
  else if b = 0xf4 then ([], some { value := 4, missing := 3, high := 0x8f })
  else if 0xf1 ≤ b && b < 0xf4 then ([], some { value := b - 0xf0, missing := 3 })
  else ([replacement], none)

def leftOver (broken : Option BrokenChar) : Text := if broken.isSome then [replacement] else []

def nextByte (broken : Option BrokenChar) (b : Nat) : Text × Option BrokenChar :=
  match broken with
  | none => firstByte b
  | some c =>
    if c.low ≤ b && b ≤ c.high then
      let value := c.value * 64 + (b - 0x80)
      if c.missing = 1 then ([Char.ofNat value], none)
      else ([], some { value, missing := c.missing - 1 })
    else
      let (shown, broken) := firstByte b
      (replacement :: shown, broken)

def hexValue? (c : Char) : Option Nat :=
  let n := c.toNat
  if c.isDigit then some (n - 48)
  else if 'a' ≤ c && c ≤ 'f' then some (n - 87)
  else if 'A' ≤ c && c ≤ 'F' then some (n - 55)
  else none

def percentByte? (a b : Char) : Option Nat := do
  let high ← hexValue? a
  let low ← hexValue? b
  some (high * 16 + low)

def percentDecodedFrom (broken : Option BrokenChar) : Text → Text
  | '%' :: a :: b :: rest =>
    match percentByte? a b with
    | some byte =>
      let (shown, broken) := nextByte broken byte
      shown ++ percentDecodedFrom broken rest
    | none => leftOver broken ++ '%' :: percentDecodedFrom none (a :: b :: rest)
  | c :: rest => leftOver broken ++ c :: percentDecodedFrom none rest
  | [] => leftOver broken

/-- A percent sign without two hexadecimal digits stands for itself. -/
def percentDecoded (s : Text) : Text := percentDecodedFrom none s

end ModalNotes.Text
