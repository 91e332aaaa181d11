import StoryScript.Number.Basic

/-! # Rounding

A positive fraction is rounded to the nearest magnitude, an exact half to the even
significand. Products, quotients and decimals are rounded once, from their exact value.
-/

namespace StoryScript

/-- The natural number nearest to `n / d`; an exact half goes to the even neighbour. -/
def roundHalfEven (n d : Nat) : Nat :=
  let quotient := n / d
  let twice := 2 * (n % d)
  if twice < d then quotient
  else if d < twice then quotient + 1
  else quotient + quotient % 2

/-- A decimal: `coefficient * 10 ^ exponent`. -/
structure Decimal where
  coefficient : Nat
  exponent : Int
deriving DecidableEq, Repr

namespace Magnitude

/-- The magnitude nearest to `n / d` units; `none` if it lies beyond the largest one. -/
def nearest? (n d : Nat) : Option Magnitude :=
  let exponent := (n / d).log2 - 52
  let significand := roundHalfEven n (d * 2 ^ exponent)
  if significand = 2 ^ 53 then ofParts? (2 ^ 52) (exponent + 1)
  else ofParts? significand exponent

def mul? (a b : Magnitude) : Option Magnitude :=
  nearest? (a.units * b.units) unitsPerOne

def div? (a b : Magnitude) : Option Magnitude :=
  nearest? (a.units * unitsPerOne) b.units

def ofNat? (n : Nat) : Option Magnitude :=
  nearest? (n * unitsPerOne) 1

end Magnitude

namespace Decimal

/-- The magnitude nearest to a decimal; `none` if it lies beyond the largest one. Exponents
far outside the range are settled without computing the power. -/
def magnitude? (d : Decimal) : Option Magnitude :=
  if d.coefficient = 0 then some 0
  else if 400 < d.exponent then none
  else if d.exponent < -(d.coefficient.log2 + 400 : Int) then some 0
  else if 0 ≤ d.exponent then
    Magnitude.nearest? (d.coefficient * 10 ^ d.exponent.toNat * Magnitude.unitsPerOne) 1
  else
    Magnitude.nearest? (d.coefficient * Magnitude.unitsPerOne) (10 ^ (-d.exponent).toNat)

end Decimal

end StoryScript
