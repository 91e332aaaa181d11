import StoryScript.Number.Numeral

/-! # Scaled significands

A number of a document is read in up to three roundings. Its digits, point left out, form a
significand as long as they fit into 64 bits; later digits are dropped. The significand is
rounded, the power of ten is rounded, and so is their product or quotient.
-/

namespace StoryScript

namespace Magnitude

def powerOfTen? (k : Nat) : Option Magnitude :=
  ofNat? (10 ^ k)

/-- The magnitude divided by `10 ^ 308` as often as told, or until it is zero. -/
def divideOften? : Nat → Magnitude → Option Magnitude
  | 0, m => some m
  | rounds + 1, m =>
    if m = 0 then some m
    else ((powerOfTen? 308).bind m.div?).bind (divideOften? rounds)

/-- The magnitude divided by `10 ^ k`, by at most `10 ^ 308` at a time. -/
def shrink? (m : Magnitude) (k : Nat) : Option Magnitude :=
  let rounds := (k - 1) / 308
  (m.divideOften? rounds).bind fun reduced =>
    (powerOfTen? (k - 308 * rounds)).bind reduced.div?

/-- The magnitude multiplied by `10 ^ exponent`; `none` if the power or the product lies
beyond the largest magnitude. -/
def scale? (m : Magnitude) (exponent : Int) : Option Magnitude :=
  if exponent < 0 then m.shrink? (-exponent).toNat
  else if exponent ≤ 308 then (powerOfTen? exponent.toNat).bind m.mul?
  else if m = 0 then some 0
  else none

end Magnitude

namespace Numeral

/-- The significand continued by the digits that fit, and the digits that do not. -/
def takeFitting : Nat → List Char → Nat × List Char
  | n, [] => (n, [])
  | n, c :: digits =>
    let next := 10 * n + (c.toNat - '0'.toNat)
    if next < 2 ^ 64 then takeFitting next digits else (n, c :: digits)

/-- The magnitude that the digits before and after the point and the exponent denote. -/
def scaled? (whole fraction : List Char) (exponent : Int) : Option Magnitude :=
  let (significand, dropped) := takeFitting 0 whole
  let (significand, unread) := takeFitting significand fraction
  let places : Int := fraction.length - unread.length
  (Magnitude.ofNat? significand).bind (·.scale? (dropped.length - places + exponent))

end Numeral

end StoryScript
