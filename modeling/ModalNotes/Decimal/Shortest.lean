import ModalNotes.Text.Basic

/-! Decimal text of a binary64 number: the fewest digits that read back as the same number, and of
those the nearest to it. Numbers are taken apart into `mantissa * 2 ^ exponent`, and all comparisons are
between whole numbers. -/
namespace ModalNotes.Decimal

structure Parts where
  mantissa : Nat
  exponent : Int
  /-- The next number below is only half as far away as the next one above. -/
  nearBelow : Bool
  deriving DecidableEq, Repr

inductive Binary64
  | nan
  | infinite (negative : Bool)
  | zero (negative : Bool)
  | finite (negative : Bool) (parts : Parts)
  deriving DecidableEq, Repr

def fractionUnit : Nat := Nat.pow 2 52

def ofBits (bits : Nat) : Binary64 :=
  let negative := bits / Nat.pow 2 63 % 2 == 1
  let biased := bits / fractionUnit % Nat.pow 2 11
  let fraction := bits % fractionUnit
  if biased = 2047 then if fraction = 0 then .infinite negative else .nan
  else if biased = 0 then
    if fraction = 0 then .zero negative else .finite negative ⟨fraction, -1074, false⟩
  else .finite negative ⟨fraction + fractionUnit, (biased : Int) - 1075, fraction == 0 && 1 < biased⟩

structure Digits where
  digits : Nat
  exponent : Int
  deriving DecidableEq, Repr

/- `2 ^ (exponent - 2) / 10 ^ place` as a fraction of whole numbers; quarter units keep the bounds of
the interval that rounds to the number whole. -/
def scale (exponent place : Int) : Nat × Nat :=
  (Nat.pow 2 (exponent - 2).toNat * Nat.pow 10 (-place).toNat,
    Nat.pow 2 (2 - exponent).toNat * Nat.pow 10 place.toNat)

def Parts.magnitude (p : Parts) : Int :=
  let (up, down) := scale p.exponent (-400)
  ((Nat.toDigits 10 (4 * p.mantissa * up / down)).length : Int) - 401

def Parts.readsBack (p : Parts) (up down n : Nat) : Bool :=
  let low := (4 * p.mantissa - if p.nearBelow then 1 else 2) * up
  let high := (4 * p.mantissa + 2) * up
  if p.mantissa % 2 = 0 then low ≤ n * down && n * down ≤ high else low < n * down && n * down < high

/- The better of the two grid neighbours; halfway goes to the even one. -/
def Parts.onGrid (p : Parts) (place : Int) : Option Digits :=
  let (up, down) := scale p.exponent place
  let value := 4 * p.mantissa * up
  let n := value / down
  let preferUpper := value * 2 > (2 * n + 1) * down || (value * 2 == (2 * n + 1) * down && n % 2 == 1)
  match p.readsBack up down n, p.readsBack up down (n + 1) with
  | true, true => some ⟨if preferUpper then n + 1 else n, place⟩
  | true, false => some ⟨n, place⟩
  | false, true => some ⟨n + 1, place⟩
  | false, false => none

def Parts.shortest (p : Parts) : Digits :=
  let top := p.magnitude
  ((List.range 17).findSome? fun (k : Nat) => p.onGrid (top - (k : Int))).getD ⟨p.mantissa, p.exponent⟩

def Digits.significant (d : Digits) : Text :=
  ((Nat.toDigits 10 d.digits).reverse.dropWhile (· == '0')).reverse

def Digits.leadingPlace (d : Digits) : Int := (Nat.toDigits 10 d.digits).length - 1 + d.exponent

structure Layout where
  firstPlace : Int
  endPlace : Int

def layout : Layout := ⟨-4, 16⟩

def exponentText (place : Int) : Text :=
  let digits := Text.ofNat place.natAbs
  'e' :: (if place < 0 then '-' else '+') :: (List.replicate (2 - digits.length) '0' ++ digits)

def Digits.text (d : Digits) : Text :=
  let digits := d.significant
  let place := d.leadingPlace
  if layout.firstPlace ≤ place && place < layout.endPlace then
    if place < 0 then
      '0' :: '.' :: (List.replicate (-place - 1).toNat '0' ++ digits)
    else
      let whole := digits.take (place.toNat + 1)
      let fraction := digits.drop (place.toNat + 1)
      whole ++ List.replicate (place.toNat + 1 - whole.length) '0' ++
        '.' :: (if fraction.isEmpty then ['0'] else fraction)
  else
    match digits with
    | [] => []
    | [c] => c :: exponentText place
    | c :: rest => c :: '.' :: rest ++ exponentText place

def signed (negative : Bool) (s : Text) : Text := if negative then '-' :: s else s

def Binary64.text : Binary64 → Text
  | .nan => "nan".toList
  | .infinite negative => signed negative "inf".toList
  | .zero negative => signed negative "0.0".toList
  | .finite negative p => signed negative p.shortest.text

end ModalNotes.Decimal
