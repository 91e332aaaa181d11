import StoryScript.Number.Layout
import StoryScript.Number.Numeral
import StoryScript.Proofs.Number.Shortest
import StoryScript.Proofs.Text.Cut

/-! # Numbers in texts

The positional layout of a decimal is read with the value of the decimal, so a finite number is
read back from its text.
-/

namespace StoryScript

namespace Numeral

variable {digits whole fraction : List Char}

theorem readDigits_append {rest : List Char} (hdigits : ∀ c ∈ digits, c.isDigit = true)
    (hrest : ∀ c ∈ rest.head?, c.isDigit = false) :
    readDigits (digits ++ rest) = (digits, rest) :=
  Text.span_eq_iff.2 ⟨rfl, hdigits, hrest⟩

theorem readDigits_digits (hdigits : ∀ c ∈ digits, c.isDigit = true) :
    readDigits digits = (digits, []) := by
  have h := @readDigits_append digits [] hdigits nofun
  rwa [List.append_nil] at h

theorem value_eq_ofDigitChars (digits : List Char) :
    value digits = Nat.ofDigitChars 10 digits 0 :=
  Nat.ofDigitChars_eq_foldl.symm

theorem value_toDigits (n : Nat) : value (Nat.toDigits 10 n) = n := by
  rw [value_eq_ofDigitChars, Nat.ofDigitChars_ten_toDigits]

theorem value_zeros_append (n : Nat) (digits : List Char) :
    value (List.replicate n '0' ++ digits) = value digits := by
  rw [value_eq_ofDigitChars, value_eq_ofDigitChars, Nat.ofDigitChars_append,
    Nat.ofDigitChars_replicate_zero, Nat.mul_zero]

theorem value_append_zeros (digits : List Char) (n : Nat) :
    value (digits ++ List.replicate n '0') = value digits * 10 ^ n := by
  rw [value_eq_ofDigitChars, value_eq_ofDigitChars, Nat.ofDigitChars_append,
    Nat.ofDigitChars_replicate_zero, Nat.mul_comm]

theorem readScaled_nil (whole fraction : List Char) :
    readScaled whole fraction [] = .ok (⟨value (whole ++ fraction), 0 - fraction.length⟩, []) :=
  rfl

theorem readDecimal_append_point (hne : whole ≠ []) (hwhole : ∀ c ∈ whole, c.isDigit = true)
    (rest : List Char) :
    readDecimal (whole ++ '.' :: rest) =
      readScaled whole (readDigits rest).1 (readDigits rest).2 := by
  have hpoint : ∀ c ∈ ('.' :: rest).head?, c.isDigit = false := by
    rintro _ ⟨⟩
    rfl
  obtain ⟨first, more, rfl⟩ := List.exists_cons_of_ne_nil hne
  unfold readDecimal
  split
  · rename_i heq
    cases heq
    exact absurd (hwhole '.' List.mem_cons_self) (by decide)
  · rw [readDigits_append hwhole hpoint]
    rfl

theorem readDecimal_append (hne : whole ≠ []) (hwhole : ∀ c ∈ whole, c.isDigit = true)
    {rest : List Char} (hrest : ∀ c ∈ rest.head?, c.isDigit = false ∧ c ≠ '.') :
    readDecimal (whole ++ rest) = readScaled whole [] rest := by
  obtain ⟨first, more, rfl⟩ := List.exists_cons_of_ne_nil hne
  unfold readDecimal
  split
  · rename_i heq
    cases heq
    exact absurd (hwhole '.' List.mem_cons_self) (by decide)
  · rw [readDigits_append hwhole fun c hc => (hrest c hc).1]
    split <;> rename_i heq <;> cases heq
    · exact absurd rfl (hrest '.' rfl).2
    · rfl

theorem readDecimal_whole (hne : whole ≠ []) (hwhole : ∀ c ∈ whole, c.isDigit = true) :
    readDecimal whole = .ok (⟨value whole, 0⟩, []) := by
  have hread := @readDecimal_append whole hne hwhole [] nofun
  rw [List.append_nil] at hread
  rw [hread, readScaled_nil, List.append_nil]
  rfl

theorem readDecimal_point (hne : whole ≠ []) (hwhole : ∀ c ∈ whole, c.isDigit = true)
    (hfraction : ∀ c ∈ fraction, c.isDigit = true) :
    readDecimal (whole ++ '.' :: fraction) =
      .ok (⟨value (whole ++ fraction), -fraction.length⟩, []) := by
  rw [readDecimal_append_point hne hwhole, readDigits_digits hfraction, readScaled_nil,
    Int.zero_sub]

end Numeral

namespace Decimal

open Numeral

variable {d : Decimal}

theorem isDigit_of_mem_digits {c : Char} (h : c ∈ d.digits) : c.isDigit = true :=
  Nat.isDigit_of_mem_toDigits (by decide) (by decide) h

theorem digits_ne_nil : d.digits ≠ [] :=
  Nat.toDigits_ne_nil

theorem value_digits (d : Decimal) : value d.digits = d.coefficient :=
  value_toDigits d.coefficient

theorem isDigit_of_mem_zeros {c : Char} {n : Nat} (h : c ∈ List.replicate n '0') :
    c.isDigit = true := by
  rw [List.eq_of_mem_replicate h]
  rfl

/-- Digits before and after a point that lay a decimal out. -/
structure LaidOut (d : Decimal) (whole fraction : List Char) : Prop where
  nonempty : whole ≠ []
  whole_digits : ∀ c ∈ whole, c.isDigit = true
  fraction_digits : ∀ c ∈ fraction, c.isDigit = true
  whole_value : 0 ≤ d.exponent →
    fraction = [] ∧ value whole = d.coefficient * 10 ^ d.exponent.toNat
  fraction_value : d.exponent < 0 →
    value (whole ++ fraction) = d.coefficient ∧ fraction.length = (-d.exponent).toNat

theorem laidOut_of_nonneg (h : 0 ≤ d.exponent) :
    LaidOut d (d.digits ++ List.replicate d.exponent.toNat '0') [] where
  nonempty := List.append_ne_nil_of_left_ne_nil digits_ne_nil _
  whole_digits c hc := (List.mem_append.1 hc).elim isDigit_of_mem_digits isDigit_of_mem_zeros
  fraction_digits := nofun
  whole_value _ := ⟨rfl, by rw [value_append_zeros, value_digits]⟩
  fraction_value hneg := absurd h (Int.not_le.2 hneg)

theorem laidOut_of_small (h : d.exponent < 0) (hlength : d.digits.length ≤ (-d.exponent).toNat) :
    LaidOut d ['0'] (List.replicate ((-d.exponent).toNat - d.digits.length) '0' ++ d.digits) where
  nonempty := List.cons_ne_nil _ _
  whole_digits c hc := by
    rw [List.mem_singleton.1 hc]
    rfl
  fraction_digits c hc := (List.mem_append.1 hc).elim isDigit_of_mem_zeros isDigit_of_mem_digits
  whole_value hnonneg := absurd hnonneg (Int.not_le.2 h)
  fraction_value _ := by
    constructor
    · exact (value_zeros_append (_ + 1) d.digits).trans (value_digits d)
    · rw [List.length_append, List.length_replicate]
      omega

theorem laidOut_of_large (h : d.exponent < 0) (hlength : (-d.exponent).toNat < d.digits.length) :
    LaidOut d (d.digits.take (d.digits.length - (-d.exponent).toNat))
      (d.digits.drop (d.digits.length - (-d.exponent).toNat)) where
  nonempty := by
    rw [ne_eq, List.take_eq_nil_iff, not_or]
    exact ⟨by omega, digits_ne_nil⟩
  whole_digits c hc := isDigit_of_mem_digits (List.mem_of_mem_take hc)
  fraction_digits c hc := isDigit_of_mem_digits (List.mem_of_mem_drop hc)
  whole_value hnonneg := absurd hnonneg (Int.not_le.2 h)
  fraction_value _ := by
    rw [List.take_append_drop, List.length_drop]
    exact ⟨value_digits d, by omega⟩

theorem laidOut_positional (d : Decimal) : LaidOut d d.positional.1 d.positional.2 := by
  simp only [positional]
  split
  · rename_i h
    exact laidOut_of_nonneg h
  · rename_i h
    split
    · rename_i hlength
      exact laidOut_of_small (Int.not_le.1 h) hlength
    · rename_i hlength
      rw [List.splitAt_eq]
      exact laidOut_of_large (Int.not_le.1 h) (Nat.not_le.1 hlength)

theorem plain_eq (d : Decimal) :
    d.plain = d.positional.1 ++ if d.positional.2 = [] then [] else '.' :: d.positional.2 := by
  rw [plain]
  split
  · rename_i heq
    rw [heq, if_pos rfl, List.append_nil]
  · rename_i hne heq
    rw [heq, if_neg hne]

theorem magnitude?_of_nonneg {m : Magnitude} (hnonneg : 0 ≤ d.exponent)
    (h : d.magnitude? = some m) :
    magnitude? ⟨d.coefficient * 10 ^ d.exponent.toNat, 0⟩ = some m := by
  by_cases hzero : d.coefficient = 0
  · rw [magnitude?, if_pos hzero] at h
    rw [magnitude?, if_pos (by rw [hzero, Nat.zero_mul]), h]
  · have hpower : d.coefficient * 10 ^ d.exponent.toNat ≠ 0 :=
      Nat.mul_ne_zero hzero (Nat.ne_of_gt (Nat.pow_pos (by decide)))
    rw [magnitude?, if_neg hzero] at h
    split at h
    · cases h
    · rw [if_neg (by omega)] at h
      rw [magnitude?, if_neg hpower, if_neg (by simp), if_neg (by simp only; omega),
        if_pos (Int.le_refl 0), ← h]
      simp

theorem exists_readDecimal_plain {m : Magnitude} (h : d.magnitude? = some m) :
    ∃ read, readDecimal d.plain = .ok (read, []) ∧ read.magnitude? = some m := by
  have hlaid := laidOut_positional d
  rw [plain_eq]
  rcases Int.lt_or_le d.exponent 0 with hneg | hnonneg
  · obtain ⟨hvalue, hlength⟩ := hlaid.fraction_value hneg
    have hne : d.positional.2 ≠ [] := by
      rw [← List.length_pos_iff, hlength]
      omega
    have hplaces : -(d.positional.2.length : Int) = d.exponent := by omega
    rw [if_neg hne, readDecimal_point hlaid.nonempty hlaid.whole_digits hlaid.fraction_digits,
      hvalue, hplaces]
    exact ⟨d, rfl, h⟩
  · obtain ⟨hnil, hvalue⟩ := hlaid.whole_value hnonneg
    rw [if_pos hnil, List.append_nil, readDecimal_whole hlaid.nonempty hlaid.whole_digits, hvalue]
    exact ⟨_, rfl, magnitude?_of_nonneg hnonneg h⟩

theorem exists_plain_eq_cons (d : Decimal) :
    ∃ first rest, d.plain = first :: rest ∧ first.isDigit = true := by
  have hlaid := laidOut_positional d
  rw [plain_eq]
  cases hwhole : d.positional.1 with
  | nil => exact absurd hwhole hlaid.nonempty
  | cons first rest =>
    refine ⟨first, _, rfl, hlaid.whole_digits first ?_⟩
    rw [hwhole]
    exact List.mem_cons_self

theorem isDigit_or_eq_point_of_mem_plain {c : Char} (h : c ∈ d.plain) :
    c.isDigit = true ∨ c = '.' := by
  have hlaid := laidOut_positional d
  rw [plain_eq] at h
  rcases List.mem_append.1 h with h | h
  · exact .inl (hlaid.whole_digits c h)
  · split at h
    · cases h
    · rcases List.mem_cons.1 h with h | h
      · exact .inr h
      · exact .inl (hlaid.fraction_digits c h)

end Decimal

namespace Numeral

theorem readSign_sign {negative : Bool} {first : Char} {rest : List Char}
    (h : first.isDigit = true) :
    readSign (Number.sign negative ++ first :: rest) = (negative, first :: rest) := by
  cases negative with
  | true => rfl
  | false =>
    change readSign (first :: rest) = _
    unfold readSign
    split
    · rename_i heq
      cases heq
      cases h
    · rename_i heq
      cases heq
      cases h
    · rfl

theorem toLower_of_isDigit {c : Char} (h : c.isDigit = true) : c.toLower = c := by
  simp only [Char.isDigit, Bool.and_eq_true, decide_eq_true_eq, UInt32.le_iff_toNat_le] at h
  refine dif_neg ?_
  simp only [UInt32.le_iff_toNat_le]
  have hlast : '9'.val.toNat = 57 := rfl
  have hfirst : 'A'.val.toNat = 65 := rfl
  omega

theorem afterInfinity?_cons {first : Char} {rest : List Char} (h : first.toLower ≠ 'i') :
    afterInfinity? (first :: rest) = none := by
  simp only [afterInfinity?, afterLetters?, h.symm, ite_false, Option.map_none]

theorem toLower_ne_of_isDigit {c : Char} (h : c.isDigit = true) : c.toLower ≠ 'i' := by
  rw [toLower_of_isDigit h]
  rintro rfl
  cases h

end Numeral

namespace Number

theorem ofText?_text {n : Number} (h : n.isFinite = true) : ofText? n.text = some n := by
  cases n with
  | infinite negative => cases h
  | nan => cases h
  | finite negative m =>
    obtain ⟨decimal, hread, hmagnitude⟩ :=
      Decimal.exists_readDecimal_plain (m.spells_shortest .up).magnitude
    obtain ⟨first, rest, hplain, hfirst⟩ := (m.shortest .up).exists_plain_eq_cons
    rw [hplain] at hread
    have hlower := Numeral.toLower_ne_of_isDigit hfirst
    simp only [ofText?, Numeral.read, text, hplain, Numeral.readSign_sign hfirst,
      Numeral.afterInfinity?_cons hlower, hread, hmagnitude, withSign, isFinite, ite_true]

end Number

end StoryScript
