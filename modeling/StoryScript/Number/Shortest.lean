import StoryScript.Number.Rounding

/-! # Shortest decimals

The written digits of a magnitude are the fewest that read back as it. Of the decimals
with that many digits the one nearest to the magnitude is taken; where two are equally
near, the format decides. The exact decimal expansion of a magnitude ends, so the search
ends too.
-/

namespace StoryScript

/-- Which of two equally near decimals is taken. -/
inductive Tie where
  | toEven
  | up
deriving DecidableEq, Repr

namespace Decimal

def digits (d : Decimal) : List Char :=
  Nat.toDigits 10 d.coefficient

/-- The decimal without `fuel` or fewer trailing zeros of its coefficient. -/
def dropZeros : Nat → Decimal → Decimal
  | 0, d => d
  | fuel + 1, d =>
    if d.coefficient % 10 = 0 then dropZeros fuel ⟨d.coefficient / 10, d.exponent + 1⟩ else d

/-- The decimal of the same value whose coefficient does not end in zero; zero has the
exponent zero. -/
def normalize (d : Decimal) : Decimal :=
  if d.coefficient = 0 then ⟨0, 0⟩ else dropZeros d.digits.length d

end Decimal

namespace Magnitude

def expansion (m : Magnitude) : Nat :=
  m.units * 5 ^ 1074

/-- The decimal nearest to the magnitude among those that are a multiple of `10 ^ (k - 1074)`,
lie next to it and read back as it. -/
def neighbour? (m : Magnitude) (tie : Tie) (expansion k : Nat) : Option Decimal :=
  let quotient := expansion / 10 ^ k
  let twice := 2 * (expansion % 10 ^ k)
  let below := Decimal.normalize ⟨quotient, k - 1074⟩
  let above := Decimal.normalize ⟨quotient + 1, k - 1074⟩
  match below.magnitude? == some m, above.magnitude? == some m with
  | true, true =>
    if twice < 10 ^ k then some below
    else if 10 ^ k < twice then some above
    else if tie = .up || quotient % 2 = 1 then some above
    else some below
  | true, false => some below
  | false, true => some above
  | false, false => none

/-- The first neighbour on the grids `10 ^ (k - 1074)`, `10 ^ (k - 1 - 1074)`, …, else the
exact expansion. -/
def shortestFrom (m : Magnitude) (tie : Tie) (expansion : Nat) : Nat → Decimal
  | 0 => Decimal.normalize ⟨expansion, -1074⟩
  | k + 1 => (m.neighbour? tie expansion (k + 1)).getD (m.shortestFrom tie expansion k)

/-- How many digits of an expansion follow its first one. The binary logarithm gives the
number up to one, since `301029 / 1000000` lies just below the logarithm of two. -/
def laterDigits (expansion : Nat) : Nat :=
  let estimate := expansion.log2 * 301029 / 1000000
  if 10 ^ (estimate + 1) ≤ expansion then estimate + 1 else estimate

/-- The decimal with the fewest digits that reads back as the magnitude. -/
def shortest (m : Magnitude) (tie : Tie) : Decimal :=
  let expansion := m.expansion
  m.shortestFrom tie expansion (laterDigits expansion)

end Magnitude

end StoryScript
