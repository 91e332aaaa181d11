import StoryScript.Number.Shortest

/-! # Layouts of numbers

A number is written in one of two layouts. In a text it is positional, without a fraction
if it is whole. In a document it always has a fraction or an exponent, and it has an
exponent when its leading digit stands below `10 ^ (-5)` or above `10 ^ 15`.
-/

namespace StoryScript

namespace Decimal

def leadingExponent (d : Decimal) : Int :=
  d.exponent + d.digits.length - 1

def positional (d : Decimal) : List Char × List Char :=
  let digits := d.digits
  if 0 ≤ d.exponent then (digits ++ List.replicate d.exponent.toNat '0', [])
  else
    let places := (-d.exponent).toNat
    if digits.length ≤ places then
      (['0'], List.replicate (places - digits.length) '0' ++ digits)
    else digits.splitAt (digits.length - places)

/-- The positional layout, without a point if no digit follows it. -/
def plain (d : Decimal) : List Char :=
  match d.positional with
  | (whole, []) => whole
  | (whole, fraction) => whole ++ '.' :: fraction

/-- The layout with one digit before the point and a signed exponent. -/
def scientific (d : Decimal) : List Char :=
  let significand :=
    match d.digits with
    | [] => []
    | [first] => [first]
    | first :: rest => first :: '.' :: rest
  let exponent := d.leadingExponent
  significand ++ 'e' :: (if exponent < 0 then '-' else '+') :: Nat.toDigits 10 exponent.natAbs

def document (d : Decimal) : List Char :=
  if -5 ≤ d.leadingExponent ∧ d.leadingExponent ≤ 15 then
    match d.positional with
    | (whole, []) => whole ++ ['.', '0']
    | (whole, fraction) => whole ++ '.' :: fraction
  else d.scientific

end Decimal

namespace Number

def sign (negative : Bool) : List Char :=
  if negative then ['-'] else []

/-- A number as it appears in a text; an exact tie of digits goes up. -/
def text : Number → List Char
  | .finite negative m => sign negative ++ (m.shortest .up).plain
  | .infinite negative => sign negative ++ ['i', 'n', 'f']
  | .nan => ['N', 'a', 'N']

/-- A finite number as it appears in a document; an exact tie of digits goes to the even
digit. -/
def document? : Number → Option (List Char)
  | .finite negative m => some (sign negative ++ (m.shortest .toEven).document)
  | _ => none

end Number

end StoryScript
