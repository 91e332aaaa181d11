/-! # Numbers

The numbers of a script are the binary floating-point numbers of 64 bits. A finite number
is a sign and a magnitude, kept in its one canonical form, so equal numbers are equal as
data. The two zeros differ as data and are equal in order.
-/

namespace StoryScript

-- Powers of natural numbers are the same whichever other powers a module has in scope.
attribute [instance (2000)] instPowNat
attribute [default_instance high + 1] instPowNat

/-- The magnitude of a finite number: `significand * 2 ^ exponent` units, where a unit is
`2 ^ (-1074)`. -/
structure Magnitude where
  significand : Nat
  exponent : Nat
  canonical : significand < 2 ^ 53 ∧ exponent ≤ 2045 ∧ (exponent = 0 ∨ 2 ^ 52 ≤ significand)
deriving DecidableEq, Repr

namespace Magnitude

abbrev unitsPerOne : Nat := 2 ^ 1074

def units (m : Magnitude) : Nat :=
  m.significand * 2 ^ m.exponent

def ofParts? (significand exponent : Nat) : Option Magnitude :=
  if h : significand < 2 ^ 53 ∧ exponent ≤ 2045 ∧ (exponent = 0 ∨ 2 ^ 52 ≤ significand) then
    some ⟨significand, exponent, h⟩
  else none

instance : Zero Magnitude := ⟨⟨0, 0, by decide⟩⟩

instance : Inhabited Magnitude := ⟨0⟩

end Magnitude

inductive Number where
  | finite (negative : Bool) (magnitude : Magnitude)
  | infinite (negative : Bool)
  | nan
deriving DecidableEq, Repr

namespace Number

instance : Inhabited Number := ⟨.finite false 0⟩

def isFinite : Number → Bool
  | .finite _ _ => true
  | _ => false

def withSign (negative : Bool) (magnitude : Option Magnitude) : Number :=
  match magnitude with
  | some m => .finite negative m
  | none => .infinite negative

def units? : Number → Option Int
  | .finite negative m => some (if negative then -(m.units : Int) else m.units)
  | _ => none

/-- The order of two finite numbers; `none` if one of them is not finite. -/
def compare? (a b : Number) : Option Ordering :=
  match a.units?, b.units? with
  | some x, some y => some (compare x y)
  | _, _ => none

end Number

end StoryScript
