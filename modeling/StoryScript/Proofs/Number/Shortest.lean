import Mathlib.Tactic.Common
import StoryScript.Number.Shortest

/-! # The shortest decimal reads back

A decimal whose value is that of a magnitude is read as it, since rounding leaves a magnitude as it
is. The shortest decimal is either one that has been found to read back, or the exact expansion.
-/

namespace StoryScript

namespace Magnitude

theorem roundHalfEven_mul (n : Nat) {d : Nat} (hd : 0 < d) : roundHalfEven (n * d) d = n := by
  unfold roundHalfEven
  simp only [Nat.mul_mod_left, Nat.mul_div_cancel n hd, Nat.mul_zero, hd, ite_true]

theorem unitsPerOne_pos : 0 < unitsPerOne := by
  rw [unitsPerOne]
  exact Nat.two_pow_pos 1074

theorem ofParts?_eq_some (m : Magnitude) : ofParts? m.significand m.exponent = some m := by
  rw [ofParts?, dif_pos m.canonical]

theorem units_lt (m : Magnitude) : m.units < 2 ^ (53 + 2045) := by
  obtain ⟨hlt, hle, -⟩ := m.canonical
  calc m.significand * 2 ^ m.exponent
      < 2 ^ 53 * 2 ^ m.exponent := Nat.mul_lt_mul_of_pos_right hlt (Nat.two_pow_pos _)
    _ = 2 ^ (53 + m.exponent) := (Nat.pow_add ..).symm
    _ ≤ 2 ^ (53 + 2045) := Nat.pow_le_pow_right (by decide) (Nat.add_le_add_left hle 53)

theorem log2_units_sub (m : Magnitude) : m.units.log2 - 52 = m.exponent := by
  obtain ⟨hlt, -, hcanonical⟩ := m.canonical
  rcases hcanonical with hzero | hnormal
  · have hunits : m.units < 2 ^ 53 := by rw [units, hzero, Nat.pow_zero, Nat.mul_one]; exact hlt
    by_cases hne : m.units = 0
    · rw [hne, hzero, Nat.log2_zero]
    · have := (Nat.log2_lt hne).2 hunits
      omega
  · have hlow : 2 ^ (52 + m.exponent) ≤ m.units := by
      rw [Nat.pow_add]
      exact Nat.mul_le_mul_right _ hnormal
    have hhigh : m.units < 2 ^ (52 + m.exponent + 1) := by
      rw [Nat.add_right_comm, Nat.pow_add]
      exact Nat.mul_lt_mul_of_pos_right hlt (Nat.two_pow_pos _)
    have hne : m.units ≠ 0 := Nat.ne_of_gt (Nat.lt_of_lt_of_le (Nat.two_pow_pos _) hlow)
    rw [(Nat.log2_eq_iff hne).2 ⟨hlow, hhigh⟩, Nat.add_sub_cancel_left]

theorem eq_zero_of_units {m : Magnitude} (h : m.units = 0) : m = 0 := by
  have hsignificand : m.significand = 0 :=
    (Nat.mul_eq_zero.1 h).resolve_right (Nat.ne_of_gt (Nat.two_pow_pos _))
  have hexponent : m.exponent = 0 := m.canonical.2.2.resolve_right (by omega)
  obtain ⟨significand, exponent, hm⟩ := m
  subst hsignificand hexponent
  rfl

theorem nearest?_units (m : Magnitude) {d : Nat} (hd : 0 < d) :
    nearest? (m.units * d) d = some m := by
  have hne : m.significand ≠ 2 ^ 53 := Nat.ne_of_lt m.canonical.1
  have hround : roundHalfEven (m.units * d) (d * 2 ^ m.exponent) = m.significand := by
    rw [units, Nat.mul_assoc, Nat.mul_comm (2 ^ m.exponent) d]
    exact roundHalfEven_mul _ (Nat.mul_pos hd (Nat.two_pow_pos _))
  simp only [nearest?, Nat.mul_div_cancel _ hd, log2_units_sub, hround, hne, ite_false,
    ofParts?_eq_some]

end Magnitude

namespace Decimal

variable {m : Magnitude} {coefficient places : Nat}

theorem magnitude?_of_whole (hne : coefficient ≠ 0)
    (h : coefficient * 10 ^ places * Magnitude.unitsPerOne = m.units) :
    magnitude? ⟨coefficient, places⟩ = some m := by
  have hplaces : places ≤ 400 := by
    by_contra hlt
    have hten : 10 ^ 401 ≤ coefficient * 10 ^ places :=
      calc 10 ^ 401 ≤ 10 ^ places := Nat.pow_le_pow_right (by decide) (by omega)
        _ ≤ coefficient * 10 ^ places := Nat.le_mul_of_pos_left _ (Nat.pos_of_ne_zero hne)
    have hlow := Nat.mul_le_mul_right Magnitude.unitsPerOne hten
    have hpowers : 2 ^ (53 + 2045) ≤ 10 ^ 401 * Magnitude.unitsPerOne := by decide +kernel
    rw [h] at hlow
    exact Nat.not_lt.2 (Nat.le_trans hpowers hlow) m.units_lt
  have hnearest := m.nearest?_units Nat.one_pos
  rw [← h, Nat.mul_one] at hnearest
  rw [magnitude?, if_neg hne, if_neg (by simp only; omega), if_neg (by simp only; omega),
    if_pos (by simp)]
  exact hnearest

/-- A decimal fraction with the value of a magnitude is read as it. -/
theorem magnitude?_of_fraction (hne : coefficient ≠ 0) (hplaces : 0 < places)
    (h : coefficient * Magnitude.unitsPerOne = m.units * 10 ^ places) :
    magnitude? ⟨coefficient, -places⟩ = some m := by
  have hunits : 0 < m.units := by
    rcases Nat.eq_zero_or_pos m.units with hzero | hpos
    · rw [hzero, Nat.zero_mul, Nat.mul_eq_zero] at h
      exact absurd (h.resolve_right (Nat.ne_of_gt Magnitude.unitsPerOne_pos)) hne
    · exact hpos
  have hlog : places ≤ coefficient.log2 + 400 := by
    have hcoefficient : coefficient < 2 ^ (coefficient.log2 + 1) := Nat.lt_log2_self
    have hpower : 2 ^ (3 * places) < 2 ^ (coefficient.log2 + 1 + 1074) :=
      calc 2 ^ (3 * places) = 8 ^ places := Nat.pow_mul 2 3 places
        _ ≤ 10 ^ places := Nat.pow_le_pow_left (by decide) _
        _ ≤ m.units * 10 ^ places := Nat.le_mul_of_pos_left _ hunits
        _ = coefficient * Magnitude.unitsPerOne := h.symm
        _ < 2 ^ (coefficient.log2 + 1) * Magnitude.unitsPerOne :=
          Nat.mul_lt_mul_of_pos_right hcoefficient Magnitude.unitsPerOne_pos
        _ = 2 ^ (coefficient.log2 + 1 + 1074) := by rw [Magnitude.unitsPerOne, ← Nat.pow_add]
    have hexponents := (Nat.pow_lt_pow_iff_right (by decide)).1 hpower
    omega
  have hnearest := m.nearest?_units (Nat.pow_pos (n := places) (show 0 < 10 by decide))
  rw [← h] at hnearest
  rw [magnitude?, if_neg hne, if_neg (by simp only; omega), if_neg (by simp only; omega),
    if_neg (by simp only; omega)]
  simpa using hnearest

theorem exists_dropZeros (fuel : Nat) (d : Decimal) :
    ∃ j : Nat, d.coefficient = (dropZeros fuel d).coefficient * 10 ^ j ∧
      (dropZeros fuel d).exponent = d.exponent + j := by
  induction fuel generalizing d with
  | zero => exact ⟨0, by simp [dropZeros]⟩
  | succ fuel ih =>
    rw [dropZeros]
    split
    · rename_i hten
      obtain ⟨j, hcoefficient, hexponent⟩ := ih ⟨d.coefficient / 10, d.exponent + 1⟩
      refine ⟨j + 1, ?_, by rw [hexponent]; push_cast; omega⟩
      have hdivides := Nat.div_mul_cancel (Nat.dvd_of_mod_eq_zero hten)
      rw [Nat.pow_succ, ← Nat.mul_assoc, ← hcoefficient, hdivides]
    · exact ⟨0, by simp⟩

theorem mul_ten_pow_of_expansion {c u p k : Nat} (h : u * 5 ^ k = c * 10 ^ (k + p)) :
    c * 10 ^ p * 2 ^ k = u := by
  refine Nat.eq_of_mul_eq_mul_right (Nat.pow_pos (show 0 < 5 by decide)) (Eq.trans ?_ h.symm)
  rw [Nat.pow_add, Nat.mul_assoc, ← Nat.mul_pow, Nat.mul_assoc, Nat.mul_comm (10 ^ p)]

theorem mul_two_pow_of_expansion {c u j q k : Nat} (hk : j + q = k) (h : u * 5 ^ k = c * 10 ^ j) :
    c * 2 ^ k = u * 10 ^ q := by
  subst hk
  have hfive : 0 < 5 ^ (j + q) := Nat.pow_pos (by decide)
  refine Nat.eq_of_mul_eq_mul_right hfive ?_
  calc c * 2 ^ (j + q) * 5 ^ (j + q) = c * 10 ^ (j + q) := by rw [Nat.mul_assoc, ← Nat.mul_pow]
    _ = u * 5 ^ (j + q) * 10 ^ q := by rw [Nat.pow_add, ← Nat.mul_assoc, ← h]
    _ = u * 10 ^ q * 5 ^ (j + q) := Nat.mul_right_comm ..

theorem magnitude?_normalize_expansion (m : Magnitude) :
    (normalize ⟨m.expansion, -1074⟩).magnitude? = some m := by
  unfold normalize
  split
  · rename_i hzero
    have hfive (k : Nat) : 5 ^ k ≠ 0 := Nat.ne_of_gt (Nat.pow_pos (by decide))
    have hunits := (Nat.mul_eq_zero.1 hzero).resolve_right (hfive 1074)
    rw [Magnitude.eq_zero_of_units hunits]
    rfl
  · rename_i hne
    obtain ⟨j, hcoefficient, hexponent⟩ :=
      exists_dropZeros (digits ⟨m.expansion, -1074⟩).length ⟨m.expansion, -1074⟩
    generalize dropZeros (digits ⟨m.expansion, -1074⟩).length ⟨m.expansion, -1074⟩ = d at *
    obtain ⟨coefficient, exponent⟩ := d
    simp only [Magnitude.expansion] at hcoefficient hexponent hne
    have hleft : coefficient ≠ 0 := by
      rintro rfl
      rw [hcoefficient, Nat.zero_mul] at hne
      exact hne rfl
    rcases Nat.lt_or_ge j 1074 with hlt | hge
    · have hplaces : j + (1074 - j) = 1074 := Nat.add_sub_cancel' (Nat.le_of_lt hlt)
      rw [show exponent = -((1074 - j : Nat) : Int) by omega]
      refine magnitude?_of_fraction hleft (Nat.sub_pos_of_lt hlt) ?_
      rw [Magnitude.unitsPerOne]
      exact mul_two_pow_of_expansion hplaces hcoefficient
    · obtain ⟨places, rfl⟩ := Nat.exists_eq_add_of_le hge
      rw [show exponent = (places : Int) by omega]
      refine magnitude?_of_whole hleft ?_
      rw [Magnitude.unitsPerOne]
      exact mul_ten_pow_of_expansion hcoefficient

theorem coefficient_dropZeros_ne_zero {fuel : Nat} {d : Decimal} (h : d.coefficient ≠ 0) :
    (dropZeros fuel d).coefficient ≠ 0 := by
  obtain ⟨j, hcoefficient, -⟩ := exists_dropZeros fuel d
  intro hzero
  rw [hzero, Nat.zero_mul] at hcoefficient
  exact h hcoefficient

/-- A decimal spells a magnitude if it is read as it and, being zero, has no exponent. -/
structure Spells (d : Decimal) (m : Magnitude) : Prop where
  magnitude : d.magnitude? = some m
  exponent : d.coefficient = 0 → d.exponent = 0

theorem spells_normalize {d : Decimal} (h : d.normalize.magnitude? = some m) :
    Spells d.normalize m where
  magnitude := h
  exponent hzero := by
    rw [normalize] at hzero ⊢
    split
    · rfl
    · rename_i hne
      rw [if_neg hne] at hzero
      exact absurd hzero (coefficient_dropZeros_ne_zero hne)

end Decimal

namespace Magnitude

theorem spells_of_neighbour? {m : Magnitude} {tie : Tie} {expansion k : Nat} {d : Decimal}
    (h : m.neighbour? tie expansion k = some d) : d.Spells m := by
  simp only [neighbour?] at h
  split at h
  · rename_i hbelow habove
    rw [beq_iff_eq] at hbelow habove
    split at h
    · cases h; exact Decimal.spells_normalize hbelow
    · split at h
      · cases h; exact Decimal.spells_normalize habove
      · split at h <;> cases h
        · exact Decimal.spells_normalize habove
        · exact Decimal.spells_normalize hbelow
  · rename_i hbelow _
    cases h
    exact Decimal.spells_normalize (beq_iff_eq.1 hbelow)
  · rename_i _ habove
    cases h
    exact Decimal.spells_normalize (beq_iff_eq.1 habove)
  · cases h

theorem spells_shortest (m : Magnitude) (tie : Tie) : (m.shortest tie).Spells m := by
  rw [shortest]
  generalize laterDigits m.expansion = k
  induction k with
  | zero => exact Decimal.spells_normalize (Decimal.magnitude?_normalize_expansion m)
  | succ k ih =>
    rw [shortestFrom]
    cases hneighbour : m.neighbour? tie m.expansion (k + 1) with
    | none => exact ih
    | some d => exact spells_of_neighbour? hneighbour

end Magnitude

end StoryScript
