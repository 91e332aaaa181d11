import Mathlib.Tactic.Common
import StoryScript.Number.Scaling
import StoryScript.Proofs.Number.Text

/-! # Scaled significands of few digits

The digits of a document's number and its power of ten are rounded before they are multiplied or
divided. If both are magnitudes as they are, only the last rounding is left, and the number is the
one that the decimal denotes.
-/

namespace StoryScript

namespace Magnitude

theorem roundHalfEven_mul_mul (n d : Nat) {k : Nat} (hk : 0 < k) :
    roundHalfEven (n * k) (d * k) = roundHalfEven n d := by
  have htwice : 2 * (n % d * k) = 2 * (n % d) * k := (Nat.mul_assoc ..).symm
  simp only [roundHalfEven, Nat.mul_div_mul_right _ _ hk, Nat.mul_mod_mul_right, htwice,
    Nat.mul_lt_mul_right hk]

theorem nearest?_mul_mul (n d : Nat) {k : Nat} (hk : 0 < k) :
    nearest? (n * k) (d * k) = nearest? n d := by
  have hround (exponent : Nat) :
      roundHalfEven (n * k) (d * k * 2 ^ exponent) = roundHalfEven n (d * 2 ^ exponent) := by
    rw [Nat.mul_right_comm]
    exact roundHalfEven_mul_mul n _ hk
  simp only [nearest?, Nat.mul_div_mul_right _ _ hk, hround]

theorem nearest?_ten_pow (c units : Nat) {a b p q : Nat} (h : a + q = p + b) :
    nearest? (c * 10 ^ a * units) (10 ^ b) = nearest? (c * 10 ^ p * units) (10 ^ q) := by
  have hten (n : Nat) : 0 < 10 ^ n := Nat.pow_pos (by decide)
  calc nearest? (c * 10 ^ a * units) (10 ^ b)
      = nearest? (c * 10 ^ a * units * 10 ^ q) (10 ^ b * 10 ^ q) :=
        (nearest?_mul_mul _ _ (hten q)).symm
    _ = nearest? (c * 10 ^ p * units * 10 ^ b) (10 ^ q * 10 ^ b) := by
        rw [Nat.mul_right_comm, Nat.mul_assoc c, ← Nat.pow_add, h, Nat.pow_add, ← Nat.mul_assoc,
          Nat.mul_right_comm, Nat.mul_comm (10 ^ b)]
    _ = nearest? (c * 10 ^ p * units) (10 ^ q) := nearest?_mul_mul _ _ (hten b)

theorem exists_units_eq {n k : Nat} (hn : n < 2 ^ 53) (hk : k ≤ 2045) :
    ∃ m : Magnitude, m.units = n * 2 ^ k := by
  induction k generalizing n with
  | zero => exact ⟨⟨n, 0, hn, Nat.zero_le _, .inl rfl⟩, rfl⟩
  | succ k ih =>
    rcases Nat.lt_or_ge n (2 ^ 52) with hlt | hge
    · obtain ⟨m, hm⟩ := @ih (n * 2) (by omega) (Nat.le_of_succ_le hk)
      exact ⟨m, by rw [hm, Nat.pow_succ, Nat.mul_assoc, Nat.mul_comm 2]⟩
    · exact ⟨⟨n, k + 1, hn, hk, .inr hge⟩, rfl⟩

theorem exists_units_eq_of_le {n k : Nat} (hn : n ≤ 2 ^ 53) (hk : k < 2045) :
    ∃ m : Magnitude, m.units = n * 2 ^ k := by
  rcases Nat.lt_or_eq_of_le hn with hlt | rfl
  · exact exists_units_eq hlt (Nat.le_of_lt hk)
  · obtain ⟨m, hm⟩ := @exists_units_eq (2 ^ 52) (k + 1) (by decide) hk
    have hdouble : 2 ^ (k + 1) = 2 * 2 ^ k := Nat.pow_succ'
    exact ⟨m, by rw [hm, hdouble, ← Nat.mul_assoc]⟩

theorem ofNat?_of_units {m : Magnitude} {n : Nat} (h : m.units = n * unitsPerOne) :
    ofNat? n = some m := by
  have hnearest := m.nearest?_units Nat.one_pos
  rwa [h, Nat.mul_one] at hnearest

theorem exists_ofNat?_eq {n : Nat} (h : n ≤ 2 ^ 53) :
    ∃ m, ofNat? n = some m ∧ m.units = n * unitsPerOne := by
  obtain ⟨m, hm⟩ := exists_units_eq_of_le h (show 1074 < 2045 by decide)
  have hunits : m.units = n * unitsPerOne := by rw [hm, unitsPerOne]
  exact ⟨m, ofNat?_of_units hunits, hunits⟩

theorem exists_powerOfTen?_eq {k : Nat} (h : k ≤ 22) :
    ∃ m, powerOfTen? k = some m ∧ m.units = 10 ^ k * unitsPerOne := by
  have hfive : 5 ^ k < 2 ^ 53 :=
    Nat.lt_of_le_of_lt (Nat.pow_le_pow_right (by decide) h) (by decide)
  obtain ⟨m, hm⟩ := exists_units_eq hfive (show k + 1074 ≤ 2045 by omega)
  have hunits : m.units = 10 ^ k * unitsPerOne := by
    rw [hm, unitsPerOne, Nat.pow_add, ← Nat.mul_assoc, ← Nat.mul_pow]
  exact ⟨m, ofNat?_of_units hunits, hunits⟩

variable {a b : Magnitude} {n k : Nat}

theorem div?_of_units (ha : a.units = n * unitsPerOne) (hb : b.units = k * unitsPerOne) :
    a.div? b = nearest? (n * unitsPerOne) k := by
  rw [div?, ha, hb]
  exact nearest?_mul_mul (n * unitsPerOne) k unitsPerOne_pos

theorem mul?_of_units (ha : a.units = n * unitsPerOne) (hb : b.units = k * unitsPerOne) :
    a.mul? b = nearest? (n * k * unitsPerOne) 1 := by
  have hproduct : n * unitsPerOne * (k * unitsPerOne) = n * k * unitsPerOne * unitsPerOne := by
    rw [← Nat.mul_assoc, Nat.mul_right_comm n]
  have hone := nearest?_mul_mul (n * k * unitsPerOne) 1 unitsPerOne_pos
  rwa [Nat.one_mul, ← hproduct, ← ha, ← hb] at hone

end Magnitude

namespace Decimal

open Magnitude

theorem magnitude?_eq_nearest? {d : Decimal} (hlow : -22 ≤ d.exponent) (hhigh : d.exponent ≤ 22) :
    d.magnitude? = nearest? (d.coefficient * 10 ^ d.exponent.toNat * unitsPerOne)
      (10 ^ (-d.exponent).toNat) := by
  rw [magnitude?]
  split
  · rename_i hzero
    have hnearest := (0 : Magnitude).nearest?_units
      (Nat.pow_pos (n := (-d.exponent).toNat) (show 0 < 10 by decide))
    rw [hzero, Nat.zero_mul, Nat.zero_mul, ← hnearest, show (0 : Magnitude).units = 0 from rfl,
      Nat.zero_mul]
  · rw [if_neg (by omega), if_neg (by omega)]
    split
    · rename_i hnonneg
      rw [show (-d.exponent).toNat = 0 by omega, Nat.pow_zero]
    · rename_i hneg
      rw [show d.exponent.toNat = 0 by omega, Nat.pow_zero, Nat.mul_one]

/-- A decimal with at most 22 places, and with a coefficient of 53 bits once the digits before the
point and one zero after it are written out. -/
def IsShort (d : Decimal) : Prop :=
  d.coefficient * 10 ^ (d.exponent + 1).toNat ≤ 2 ^ 53 ∧ -22 ≤ d.exponent

instance (d : Decimal) : Decidable d.IsShort :=
  inferInstanceAs (Decidable (_ ∧ _))

theorem IsShort.exponent_le {d : Decimal} {m : Magnitude} (h : d.IsShort) (hspells : d.Spells m) :
    d.exponent ≤ 22 := by
  rcases Nat.eq_zero_or_pos d.coefficient with hzero | hpos
  · rw [hspells.exponent hzero]
    decide
  · have hpower : 10 ^ (d.exponent + 1).toNat < 10 ^ 16 :=
      calc 10 ^ (d.exponent + 1).toNat
          ≤ d.coefficient * 10 ^ (d.exponent + 1).toNat := Nat.le_mul_of_pos_left _ hpos
        _ ≤ 2 ^ 53 := h.1
        _ < 10 ^ 16 := by decide
    have hplaces := (Nat.pow_lt_pow_iff_right (by decide)).1 hpower
    omega

theorem magnitude?_shift {c j : Nat} {e : Int} (hlow : -22 ≤ e - j) (hhigh : e ≤ 22) :
    magnitude? ⟨c * 10 ^ j, e - j⟩ = magnitude? ⟨c, e⟩ := by
  have hpower : c * 10 ^ j * 10 ^ (e - j).toNat = c * 10 ^ (j + (e - j).toNat) := by
    rw [Nat.mul_assoc, ← Nat.pow_add]
  rw [magnitude?_eq_nearest? hlow (by simp only; omega),
    magnitude?_eq_nearest? (by simp only; omega) hhigh]
  simp only [hpower]
  exact nearest?_ten_pow c unitsPerOne (by omega)

end Decimal

namespace Magnitude

theorem scale?_ofNat? {n : Nat} {exponent : Int} (hn : n ≤ 2 ^ 53) (hlow : -22 ≤ exponent)
    (hhigh : exponent ≤ 22) :
    (ofNat? n).bind (·.scale? exponent) = Decimal.magnitude? ⟨n, exponent⟩ := by
  obtain ⟨m, hm, hunits⟩ := exists_ofNat?_eq hn
  rw [hm, Option.bind_some, scale?, Decimal.magnitude?_eq_nearest? hlow hhigh]
  simp only
  split
  · rename_i hneg
    obtain ⟨power, hpower, htens⟩ := exists_powerOfTen?_eq (show (-exponent).toNat ≤ 22 by omega)
    have hrounds : ((-exponent).toNat - 1) / 308 = 0 := by omega
    rw [shrink?, hrounds, Nat.mul_zero, Nat.sub_zero, divideOften?, Option.bind_some, hpower,
      Option.bind_some, div?_of_units hunits htens, show exponent.toNat = 0 by omega, Nat.pow_zero,
      Nat.mul_one]
  · rename_i hnonneg
    obtain ⟨power, hpower, htens⟩ := exists_powerOfTen?_eq (show exponent.toNat ≤ 22 by omega)
    rw [if_pos (by omega), hpower, Option.bind_some, mul?_of_units hunits htens,
      show (-exponent).toNat = 0 by omega, Nat.pow_zero]

end Magnitude

namespace Numeral

theorem le_ofDigitChars (n : Nat) (digits : List Char) : n ≤ Nat.ofDigitChars 10 digits n := by
  rw [Nat.ofDigitChars_eq_ofDigitChars_zero]
  exact Nat.le_add_right_of_le (Nat.le_mul_of_pos_left n (Nat.pow_pos (by decide)))

theorem takeFitting_of_lt {n : Nat} {digits : List Char}
    (h : Nat.ofDigitChars 10 digits n < 2 ^ 64) :
    takeFitting n digits = (Nat.ofDigitChars 10 digits n, []) := by
  induction digits generalizing n with
  | nil => rw [takeFitting, Nat.ofDigitChars_nil]
  | cons c digits ih =>
    rw [Nat.ofDigitChars_cons] at h ⊢
    have hnext : 10 * n + (c.toNat - '0'.toNat) < 2 ^ 64 :=
      Nat.lt_of_le_of_lt (le_ofDigitChars _ digits) h
    simp only [takeFitting, hnext, ite_true]
    exact ih h

/-- A numeral of few digits and a small exponent is read as the decimal that it denotes. -/
theorem scaled?_of_le {whole fraction : List Char} {exponent : Int}
    (hvalue : value (whole ++ fraction) ≤ 2 ^ 53) (hlow : -22 ≤ exponent - fraction.length)
    (hhigh : exponent - fraction.length ≤ 22) :
    scaled? whole fraction exponent =
      Decimal.magnitude? ⟨value (whole ++ fraction), exponent - fraction.length⟩ := by
  have happend : value (whole ++ fraction) = Nat.ofDigitChars 10 fraction (value whole) := by
    rw [value_eq_ofDigitChars, Nat.ofDigitChars_append, value_eq_ofDigitChars]
  have hwhole : value whole ≤ value (whole ++ fraction) := by
    rw [happend]
    exact le_ofDigitChars _ fraction
  have htakeWhole : takeFitting 0 whole = (value whole, []) := by
    rw [value_eq_ofDigitChars] at hwhole ⊢
    exact takeFitting_of_lt (by omega)
  have htakeFraction : takeFitting (value whole) fraction = (value (whole ++ fraction), []) := by
    rw [happend] at hvalue ⊢
    exact takeFitting_of_lt (by omega)
  have hexponent : ((0 : Nat) : Int) - (fraction.length - (0 : Nat)) + exponent =
      exponent - fraction.length := by omega
  simp only [scaled?, htakeWhole, htakeFraction, List.length_nil, hexponent]
  exact Magnitude.scale?_ofNat? hvalue hlow hhigh

end Numeral

end StoryScript
