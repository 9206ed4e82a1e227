import CommandFile.Number.Basic
import CommandFile.Text.Basic

/-!
# Decimal forms of numbers

Reading takes `digits * 10 ^ exponent` to the nearest number.  Writing looks for the
fewest digits that read back to the number, and among those for the decimal nearest to
it.  Numbers from 10^-4 up to 10^16 are written positionally, with at least one digit
after the point; others have a signed exponent of at least two digits.
-/

namespace CommandFile.Number

/-- `digits * 10 ^ exponent`. -/
structure Decimal where
  digits : Nat
  exponent : Int
deriving DecidableEq, Repr

namespace Decimal

/-- The number of digits; zero has none. -/
def width (number : Nat) : Nat := if number = 0 then 0 else (Nat.toDigits 10 number).length

/-- A decimal whose leading digit lies beyond this place is out of range, on either
side. -/
def farthest : Int := 400

def quotient (decimal : Decimal) : Nat × Nat :=
  if decimal.exponent < 0 then (decimal.digits, Nat.pow 10 decimal.exponent.natAbs)
  else (decimal.digits * Nat.pow 10 decimal.exponent.natAbs, 1)

def toNumber (negative : Bool) (decimal : Decimal) : Number :=
  let leading := decimal.exponent + width decimal.digits
  if decimal.digits = 0 || leading < -farthest then nearest negative 0 1
  else if farthest < leading then .infinite negative
  else
    let (above, below) := decimal.quotient
    nearest negative above below

/-- The number of places before the point in a quotient; below one tenth it is
negative. -/
def places (above below : Nat) : Int :=
  if below ≤ above then width (above / below)
  else 1 - (go above below (width below + 1) : Nat)
where
  /-- The number of tens needed to bring the quotient to one or more. -/
  go (above below : Nat) : Nat → Nat
    | 0 => 0
    | fuel + 1 => if below ≤ above then 0 else go (above * 10) below fuel + 1

/-- Twice the distance between a quotient and a grid point, in units of the grid point's
own denominator. -/
def isCloser (above below : Nat) (low : Decimal) : Bool :=
  let (num, den) := (⟨2 * low.digits + 1, low.exponent⟩ : Decimal).quotient
  2 * above * den < num * below

def isTie (above below : Nat) (low : Decimal) : Bool :=
  let (num, den) := (⟨2 * low.digits + 1, low.exponent⟩ : Decimal).quotient
  2 * above * den = num * below

/-- The decimal on a grid of `10 ^ exponent` that reads back to a number, the closer one
if both neighbours do, and the even one if neither is closer. -/
def onGrid? (number : Number) (above below : Nat) (exponent : Int) : Option Decimal :=
  let (num, den) : Nat × Nat :=
    if exponent < 0 then (above * Nat.pow 10 exponent.natAbs, below)
    else (above, below * Nat.pow 10 exponent.natAbs)
  let low : Decimal := ⟨num / den, exponent⟩
  let high : Decimal := ⟨num / den + 1, exponent⟩
  match low.toNumber false == number, high.toNumber false == number with
  | true, true =>
      if isCloser above below low || (isTie above below low && low.digits % 2 = 0) then
        some low
      else some high
  | true, false => some low
  | false, true => some high
  | false, false => none

/-- Seventeen digits tell all numbers apart. -/
def enough : Nat := 17

def strip : Nat → Decimal → Decimal
  | 0, decimal => decimal
  | fuel + 1, decimal =>
      if decimal.digits ≠ 0 && decimal.digits % 10 = 0 then
        strip fuel ⟨decimal.digits / 10, decimal.exponent + 1⟩
      else decimal

/-- The shortest decimal that reads back to a positive number; the exact value would
serve too. -/
def shortest (mantissa : Nat) (exponent : Int) : Decimal :=
  let number := Number.finite false mantissa exponent
  let (above, below) := Number.quotient mantissa exponent
  let count := places above below
  let found := (List.range enough).findSome? fun digits =>
    onGrid? number above below (count - (digits + 1 : Nat))
  let exact : Decimal :=
    if exponent < 0 then ⟨mantissa * Nat.pow 5 exponent.natAbs, exponent⟩
    else ⟨mantissa * Nat.pow 2 exponent.natAbs, 0⟩
  let decimal := found.getD exact
  strip (width decimal.digits) decimal

/-- Leading digits are written positionally from this place after the point on. -/
def leastPlace : Int := -3

/-- Leading digits are written positionally up to this place before the point. -/
def greatestPlace : Int := 16

def exponentText (exponent : Int) : List Char :=
  let digits := Nat.toDigits 10 exponent.natAbs
  let padded := if digits.length < 2 then '0' :: digits else digits
  (if exponent < 0 then '-' else '+') :: padded

def layout (decimal : Decimal) : List Char :=
  let digits := Nat.toDigits 10 decimal.digits
  let place := decimal.exponent + digits.length
  if decimal.digits = 0 then ['0', '.', '0']
  else if place < leastPlace || greatestPlace < place then
    let head := digits.take 1
    let tail := digits.drop 1
    let fraction := if tail = [] then [] else '.' :: tail
    head ++ fraction ++ 'e' :: exponentText (place - 1)
  else if place ≤ 0 then
    '0' :: '.' :: List.replicate place.natAbs '0' ++ digits
  else if decimal.exponent ≥ 0 then
    digits ++ List.replicate decimal.exponent.natAbs '0' ++ ['.', '0']
  else
    digits.take place.natAbs ++ '.' :: digits.drop place.natAbs

end Decimal

def text : Number → Text
  | .nan => Text.ofString "nan"
  | .infinite negative => Text.ofString (if negative then "-inf" else "inf")
  | .finite negative mantissa exponent =>
      let digits :=
        if mantissa = 0 then ['0', '.', '0']
        else (Decimal.shortest mantissa exponent).layout
      if negative then '-' :: digits else digits

end CommandFile.Number
