/-!
# Numbers

The numbers of settings are binary64 values.  A finite one is a sign and a product
`mantissa * 2 ^ exponent`; `nearest` gives each value one such form, with a mantissa of
53 bits unless the exponent is the least one.  Rounding goes to the nearest value, and
a tie goes to the even mantissa.
-/

namespace CommandFile

inductive Number
  | finite (negative : Bool) (mantissa : Nat) (exponent : Int)
  | infinite (negative : Bool)
  | nan
deriving DecidableEq, Repr

namespace Number

def precision : Nat := 53

def leastExponent : Int := -1074

def greatestExponent : Int := 971

def zero : Number := .finite false 0 leastExponent

/-- A quotient rounded to the nearest natural number; a tie goes to the even one. -/
def roundQuotient (numerator denominator : Nat) : Nat :=
  let quotient := numerator / denominator
  let remainder := numerator % denominator
  if 2 * remainder < denominator then quotient
  else if denominator < 2 * remainder then quotient + 1
  else if quotient % 2 = 0 then quotient
  else quotient + 1

def scaled (numerator denominator : Nat) (exponent : Int) : Nat × Nat :=
  if exponent < 0 then (numerator * Nat.pow 2 exponent.natAbs, denominator)
  else (numerator, denominator * Nat.pow 2 exponent.natAbs)

/-- The exponent of the greatest power of two that is not above a positive quotient. -/
def magnitude (numerator denominator : Nat) : Int :=
  let guess : Int := numerator.log2 - denominator.log2
  let (above, below) := scaled numerator denominator guess
  if above < below then guess - 1 else guess

def nearest (negative : Bool) (numerator denominator : Nat) : Number :=
  if numerator = 0 then .finite negative 0 leastExponent
  else
    let exponent :=
      max (magnitude numerator denominator - (precision - 1 : Nat)) leastExponent
    let (above, below) := scaled numerator denominator exponent
    let mantissa := roundQuotient above below
    let (mantissa, exponent) :=
      if mantissa = Nat.pow 2 precision then (Nat.pow 2 (precision - 1), exponent + 1)
      else (mantissa, exponent)
    if greatestExponent < exponent then .infinite negative
    else .finite negative mantissa exponent

def ofInt (value : Int) : Number := nearest (value < 0) value.natAbs 1

def quotient (mantissa : Nat) (exponent : Int) : Nat × Nat :=
  if exponent < 0 then (mantissa, Nat.pow 2 exponent.natAbs)
  else (mantissa * Nat.pow 2 exponent.natAbs, 1)

/-- Whether the number is below zero.  A zero is not, whatever its sign. -/
def isBelowZero : Number → Bool
  | .finite negative mantissa _ => negative && mantissa ≠ 0
  | .infinite negative => negative
  | .nan => false

def isAtLeastZero : Number → Bool
  | .nan => false
  | number => !number.isBelowZero

/-- Zero in the place of everything that is not above it. -/
def clamp (number : Number) : Number :=
  match number with
  | .finite false mantissa exponent =>
      if mantissa = 0 then zero else .finite false mantissa exponent
  | .infinite false => .infinite false
  | _ => zero

end Number

end CommandFile
