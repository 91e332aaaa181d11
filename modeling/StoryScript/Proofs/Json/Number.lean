import Mathlib.Tactic.Common
import Mathlib.Tactic.IntervalCases
import StoryScript.Json.Fields
import StoryScript.Json.Reader
import StoryScript.Json.Writer
import StoryScript.Proofs.Number.Scaling

/-! # Numbers in documents

What is written for a number is one numeral: it is read up to its end, whatever follows it. The
number that it is read as may be another one, since the reader rounds more than once.
-/

namespace StoryScript

namespace Numeral

/-- A text that begins with a digit, a point or the letter of an exponent goes on with a
numeral. -/
def Continues (rest : List Char) : Prop :=
  ∃ c ∈ rest.head?, c.isDigit = true ∨ c = '.' ∨ c = 'e' ∨ c = 'E'

variable {rest : List Char}

theorem not_continues_nil : ¬ Continues [] :=
  nofun

theorem isDigit_of_not_continues (h : ¬ Continues rest) : ∀ c ∈ rest.head?, c.isDigit = false :=
  fun c hc => Bool.eq_false_iff.2 fun hdigit => h ⟨c, hc, .inl hdigit⟩

theorem ne_point_of_not_continues (h : ¬ Continues rest) : ∀ c ∈ rest.head?, c ≠ '.' :=
  fun c hc heq => h ⟨c, hc, .inr (.inl heq)⟩

/-- The digits of a whole number: one zero, or digits that do not begin with zero. -/
structure IsWhole (digits : List Char) : Prop where
  nonempty : digits ≠ []
  are_digits : ∀ c ∈ digits, c.isDigit = true
  leading : ∀ more, digits = '0' :: more → more = []

theorem digitChar_ne_zero {n : Nat} (hpos : 0 < n) (h : n < 10) : n.digitChar ≠ '0' := by
  interval_cases n <;> decide

theorem exists_toDigits {n : Nat} (hpos : 0 < n) :
    ∃ first more, Nat.toDigits 10 n = first :: more ∧ first ≠ '0' := by
  induction n using Nat.strongRecOn with
  | ind n ih =>
    rcases Nat.lt_or_ge n 10 with hlt | hge
    · exact ⟨_, _, Nat.toDigits_of_lt_base hlt, digitChar_ne_zero hpos hlt⟩
    · obtain ⟨first, more, hdigits, hfirst⟩ := ih (n / 10) (by omega) (by omega)
      rw [Nat.toDigits_of_base_le (by decide) hge, hdigits]
      exact ⟨first, _, rfl, hfirst⟩

theorem isWhole_of_cons {first : Char} {more : List Char} (hfirst : first ≠ '0')
    (h : ∀ c ∈ first :: more, c.isDigit = true) : IsWhole (first :: more) where
  nonempty := List.cons_ne_nil _ _
  are_digits := h
  leading _ heq := absurd (List.head_eq_of_cons_eq heq) hfirst

theorem isWhole_singleton {digit : Char} (h : digit.isDigit = true) : IsWhole [digit] where
  nonempty := List.cons_ne_nil _ _
  are_digits c hc := by rwa [List.mem_singleton.1 hc]
  leading _ heq := (List.tail_eq_of_cons_eq heq).symm

theorem isWhole_toDigits (n : Nat) : IsWhole (Nat.toDigits 10 n) := by
  obtain rfl | hpos := Nat.eq_zero_or_pos n
  · exact isWhole_singleton rfl
  · obtain ⟨first, more, hdigits, hfirst⟩ := exists_toDigits hpos
    rw [hdigits]
    refine isWhole_of_cons hfirst fun c hc => ?_
    rw [← hdigits] at hc
    exact Nat.isDigit_of_mem_toDigits (by decide) (by decide) hc

structure IsExponent (text : List Char) (exponent : Int) : Prop where
  letter : ∀ c ∈ text.head?, c = 'e'
  read : ∀ rest, ¬ Continues rest → readExponent (text ++ rest) = .ok (exponent, rest)

theorem isExponent_nil : IsExponent [] 0 where
  letter := nofun
  read rest h := by
    rw [List.nil_append, readExponent.eq_def]
    split
    · rfl
    · rename_i c s
      have hletter : ¬ (c = 'e' ∨ c = 'E') := fun hc =>
        h ⟨c, rfl, hc.elim (fun h => .inr (.inr (.inl h))) fun h => .inr (.inr (.inr h))⟩
      simp only [Bool.or_eq_true, decide_eq_true_eq, hletter, ite_false]

theorem isExponent_signed (negative : Bool) (n : Nat) :
    IsExponent ('e' :: (if negative then '-' else '+') :: Nat.toDigits 10 n)
      (if negative then -(n : Int) else n) where
  letter := by
    rintro _ ⟨⟩
    rfl
  read rest h := by
    have hdigits := readDigits_append (isWhole_toDigits n).are_digits (isDigit_of_not_continues h)
    have hsign : readSign ((if negative then '-' else '+') :: (Nat.toDigits 10 n ++ rest)) =
        (negative, Nat.toDigits 10 n ++ rest) := by
      cases negative <;> rfl
    rw [List.cons_append, List.cons_append, readExponent]
    simp only [decide_true, Bool.true_or, ite_true, hsign, hdigits]
    split
    · rename_i heq
      exact absurd (congrArg Prod.fst heq) (isWhole_toDigits n).nonempty
    · rename_i heq
      cases heq
      rw [value_toDigits]

end Numeral

namespace Json

open Numeral

variable {negative : Bool} {whole fraction tail rest text : List Char} {exponent : Int}

theorem readWhole?_append (h : IsWhole whole) (hrest : ∀ c ∈ rest.head?, c.isDigit = false) :
    readWhole? (whole ++ rest) = some (whole, rest) := by
  rw [readWhole?, readDigits_append h.are_digits hrest]
  split
  · rename_i heq
    exact absurd (congrArg Prod.fst heq) h.nonempty
  · rename_i heq
    exact absurd (h.leading _ (congrArg Prod.fst heq)) (List.cons_ne_nil _ _)
  · rfl

def point (fraction : List Char) : List Char :=
  if fraction = [] then [] else '.' :: fraction

theorem readFraction?_append (hfraction : ∀ c ∈ fraction, c.isDigit = true)
    (hdigit : ∀ c ∈ rest.head?, c.isDigit = false) (hpoint : ∀ c ∈ rest.head?, c ≠ '.') :
    readFraction? (point fraction ++ rest) = some (fraction, rest) := by
  rw [point]
  split
  · rename_i hnil
    rw [List.nil_append, readFraction?.eq_def]
    split
    · exact absurd rfl (hpoint _ rfl)
    · rw [hnil]
  · rename_i hne
    rw [List.cons_append, readFraction?, readDigits_append hfraction hdigit]
    split
    · rename_i heq
      exact absurd (congrArg Prod.fst heq) hne
    · rfl

/-- The document that the parts of a numeral denote. A plain numeral has neither a fraction nor an
exponent. -/
def ofParts (negative plain : Bool) (whole fraction : List Char) (exponent : Int) : Json :=
  match if plain then integer? negative (value whole) else none with
  | some n => .integer n
  | none =>
    match scaled? whole fraction exponent with
    | some m => .number (.finite negative m)
    | none => .unreadable

theorem readNumber?_of_parts {first : Char} {s afterWhole afterFraction : List Char}
    (hfirst : first.isDigit = true) (hwhole : readWhole? (first :: s) = some (whole, afterWhole))
    (hfraction : readFraction? afterWhole = some (fraction, afterFraction))
    (hexponent : readExponent afterFraction = .ok (exponent, rest)) :
    readNumber? (Number.sign negative ++ first :: s) =
      some (ofParts negative (rest.length = afterWhole.length) whole fraction exponent, rest) := by
  unfold readNumber?
  split
  rename_i found unsigned heq
  obtain ⟨rfl, rfl⟩ : found = negative ∧ unsigned = first :: s := by
    cases negative with
    | true => exact ⟨(congrArg Prod.fst heq).symm, (congrArg Prod.snd heq).symm⟩
    | false =>
      rw [Number.sign, if_neg Bool.false_ne_true, List.nil_append] at heq
      split at heq
      · rename_i hminus
        cases hminus
        cases hfirst
      · exact ⟨(congrArg Prod.fst heq).symm, (congrArg Prod.snd heq).symm⟩
  simp only [hwhole, hfraction, hexponent, ofParts, decide_eq_true_eq]
  generalize (if rest.length = afterWhole.length then integer? found (value whole) else none) =
    plain
  generalize scaled? whole fraction exponent = magnitude
  cases plain with
  | some n => rfl
  | none => cases magnitude <;> rfl

def ofNumeral (text : List Char) : Json :=
  ((readNumber? text).map (·.1)).getD .unreadable

theorem depth_ofParts (negative plain : Bool) (whole fraction : List Char) (exponent : Int) :
    (ofParts negative plain whole fraction exponent).depth = 0 := by
  rw [ofParts]
  generalize (if plain = true then integer? negative (value whole) else none) = integer
  generalize scaled? whole fraction exponent = magnitude
  cases integer with
  | some n => rfl
  | none => cases magnitude <;> rfl

/-- A text that is read as a number up to its end. -/
structure IsNumeral (text : List Char) : Prop where
  depth : (ofNumeral text).depth = 0
  starts : ∃ c s, text = c :: s ∧ (c = '-' ∨ c.isDigit = true)
  read : ∀ rest, ¬ Continues rest → readNumber? (text ++ rest) = some (ofNumeral text, rest)

/-- A whole number with a fraction and an exponent is read up to its end. -/
theorem readNumber?_parts_append (hwhole : IsWhole whole)
    (hfraction : ∀ c ∈ fraction, c.isDigit = true) (htail : IsExponent tail exponent)
    (hrest : ¬ Continues rest) :
    readNumber? (Number.sign negative ++ (whole ++ (point fraction ++ tail)) ++ rest) =
      some (ofParts negative (point fraction ++ tail).isEmpty whole fraction exponent, rest) := by
  obtain ⟨first, s, rfl⟩ := List.exists_cons_of_ne_nil hwhole.nonempty
  have hdigit : ∀ c ∈ (tail ++ rest).head?, c.isDigit = false := by
    cases tail with
    | nil => exact isDigit_of_not_continues hrest
    | cons c tail =>
      rintro _ ⟨⟩
      rw [htail.letter c rfl]
      rfl
  have hpoint : ∀ c ∈ (tail ++ rest).head?, c ≠ '.' := by
    cases tail with
    | nil => exact ne_point_of_not_continues hrest
    | cons c tail =>
      rintro _ ⟨⟩
      rw [htail.letter c rfl]
      decide
  have hafter : ∀ c ∈ (point fraction ++ (tail ++ rest)).head?, c.isDigit = false := by
    rw [point]
    split
    · exact hdigit
    · rintro _ ⟨⟩
      rfl
  have hplain : decide (rest.length = (point fraction ++ (tail ++ rest)).length) =
      (point fraction ++ tail).isEmpty := by
    rw [← List.append_assoc, List.length_append, Bool.eq_iff_iff, decide_eq_true_eq,
      List.isEmpty_iff_length_eq_zero]
    omega
  rw [List.append_assoc, List.append_assoc, List.append_assoc, ← hplain]
  exact readNumber?_of_parts (hwhole.are_digits first List.mem_cons_self)
    (readWhole?_append hwhole hafter) (readFraction?_append hfraction hdigit hpoint)
    (htail.read rest hrest)

theorem ofNumeral_parts (hwhole : IsWhole whole)
    (hfraction : ∀ c ∈ fraction, c.isDigit = true) (htail : IsExponent tail exponent) :
    ofNumeral (Number.sign negative ++ (whole ++ (point fraction ++ tail))) =
      ofParts negative (point fraction ++ tail).isEmpty whole fraction exponent := by
  have hread := @readNumber?_parts_append negative _ _ _ [] _ hwhole hfraction htail
    not_continues_nil
  rw [List.append_nil] at hread
  rw [ofNumeral, hread]
  rfl

theorem isNumeral_of_parts (hwhole : IsWhole whole)
    (hfraction : ∀ c ∈ fraction, c.isDigit = true) (htail : IsExponent tail exponent) :
    IsNumeral (Number.sign negative ++ (whole ++ (point fraction ++ tail))) where
  depth := by
    rw [ofNumeral_parts hwhole hfraction htail]
    exact depth_ofParts ..
  starts := by
    obtain ⟨first, s, rfl⟩ := List.exists_cons_of_ne_nil hwhole.nonempty
    cases negative with
    | true => exact ⟨_, _, rfl, .inl rfl⟩
    | false => exact ⟨first, _, rfl, .inr (hwhole.are_digits first List.mem_cons_self)⟩
  read rest hrest := by
    rw [ofNumeral_parts hwhole hfraction htail]
    exact readNumber?_parts_append hwhole hfraction htail hrest

theorem isNumeral_writeInteger (n : Int) : IsNumeral (writeInteger n) := by
  have h := @isNumeral_of_parts (decide (n < 0)) _ [] [] 0 (isWhole_toDigits n.natAbs) nofun
    isExponent_nil
  rwa [point, if_pos rfl, List.nil_append, List.append_nil] at h

end Json

namespace Decimal

open Numeral

variable {d : Decimal}

/-- The positional layout begins with the first digit, or there is only a zero before the point. -/
theorem positional_fst {first : Char} {more : List Char} (h : d.digits = first :: more) :
    d.positional.1 = ['0'] ∨ ∃ rest, d.positional.1 = first :: rest := by
  simp only [positional, h]
  split
  · exact .inr ⟨_, rfl⟩
  · split
    · exact .inl rfl
    · rename_i hlength
      obtain ⟨places, hplaces⟩ := Nat.exists_eq_add_one_of_ne_zero
        (Nat.sub_ne_zero_of_lt (Nat.not_le.1 hlength))
      rw [hplaces, List.splitAt_eq]
      exact .inr ⟨_, rfl⟩

theorem isWhole_positional {m : Magnitude} (h : d.Spells m) : IsWhole d.positional.1 := by
  have hlaid := laidOut_positional d
  obtain hzero | hpos := Nat.eq_zero_or_pos d.coefficient
  · have hexponent := h.exponent hzero
    obtain ⟨coefficient, exponent⟩ := d
    cases hzero
    cases hexponent
    exact isWhole_singleton rfl
  · obtain ⟨first, more, hdigits, hfirst⟩ := exists_toDigits hpos
    obtain hsmall | ⟨rest, hrest⟩ := positional_fst hdigits
    · rw [hsmall]
      exact isWhole_singleton rfl
    · have hwhole := hlaid.whole_digits
      rw [hrest] at hwhole ⊢
      exact isWhole_of_cons hfirst hwhole

theorem document_eq (h : -5 ≤ d.leadingExponent ∧ d.leadingExponent ≤ 15) :
    d.document =
      d.positional.1 ++ '.' :: if d.positional.2 = [] then ['0'] else d.positional.2 := by
  rw [document, if_pos h]
  split
  · rename_i heq
    rw [heq, if_pos rfl]
  · rename_i hne heq
    rw [heq, if_neg hne]

/-- The layout of a decimal in documents, as a numeral with a fraction or an exponent. As many
zeros as told are written, instead of being counted in the exponent. -/
structure WrittenAs (d : Decimal) (whole fraction tail : List Char) (exponent : Int)
    (zeros : Nat) : Prop where
  layout : d.document = whole ++ (Json.point fraction ++ tail)
  isWhole : IsWhole whole
  isDigit : ∀ c ∈ fraction, c.isDigit = true
  isExponent : IsExponent tail exponent
  marked : (Json.point fraction ++ tail).isEmpty = false
  value_eq : value (whole ++ fraction) = d.coefficient * 10 ^ zeros
  exponent_eq : exponent - fraction.length = d.exponent - zeros
  zeros_le : zeros ≤ (d.exponent + 1).toNat

theorem writtenAs_whole (h : -5 ≤ d.leadingExponent ∧ d.leadingExponent ≤ 15)
    (hwhole : IsWhole d.positional.1) (hnonneg : 0 ≤ d.exponent) :
    d.WrittenAs d.positional.1 ['0'] [] 0 (d.exponent.toNat + 1) where
  layout := by
    rw [document_eq h, if_pos ((laidOut_positional d).whole_value hnonneg).1]
    rfl
  isWhole := hwhole
  isDigit := List.forall_mem_singleton.2 rfl
  isExponent := isExponent_nil
  marked := rfl
  value_eq := by
    rw [show ['0'] = List.replicate 1 '0' from rfl, value_append_zeros,
      ((laidOut_positional d).whole_value hnonneg).2, Nat.mul_assoc, Nat.pow_one, Nat.pow_succ]
  exponent_eq := by
    rw [List.length_singleton]
    omega
  zeros_le := by omega

theorem writtenAs_fraction (h : -5 ≤ d.leadingExponent ∧ d.leadingExponent ≤ 15)
    (hwhole : IsWhole d.positional.1) (hneg : d.exponent < 0) :
    d.WrittenAs d.positional.1 d.positional.2 [] 0 0 := by
  have hlaid := laidOut_positional d
  obtain ⟨hvalue, hlength⟩ := hlaid.fraction_value hneg
  have hne : d.positional.2 ≠ [] := by
    rw [← List.length_pos_iff, hlength]
    omega
  constructor
  · rw [document_eq h, if_neg hne, Json.point, if_neg hne, List.append_nil]
  · exact hwhole
  · exact hlaid.fraction_digits
  · exact isExponent_nil
  · rw [Json.point, if_neg hne]
    rfl
  · rw [hvalue, Nat.pow_zero, Nat.mul_one]
  · rw [hlength]
    omega
  · exact Nat.zero_le _

theorem exists_writtenAs_scientific (h : ¬ (-5 ≤ d.leadingExponent ∧ d.leadingExponent ≤ 15)) :
    ∃ whole fraction tail exponent, d.WrittenAs whole fraction tail exponent 0 := by
  have hdigit : ∀ c ∈ d.digits, c.isDigit = true := fun c => isDigit_of_mem_digits
  have hvalue := value_digits d
  obtain ⟨first, fraction, hdigits⟩ := List.exists_cons_of_ne_nil (@digits_ne_nil d)
  rw [hdigits] at hvalue
  rw [hdigits, List.forall_mem_cons] at hdigit
  refine ⟨[first], fraction, _, _, ?_, isWhole_singleton hdigit.1, hdigit.2,
    isExponent_signed (d.leadingExponent < 0) d.leadingExponent.natAbs, ?_, ?_, ?_, Nat.zero_le _⟩
  · simp only [document, if_neg h, scientific, hdigits, decide_eq_true_eq]
    cases fraction with
    | nil => rfl
    | cons c fraction => rw [Json.point, if_neg (List.cons_ne_nil c fraction)]; rfl
  · rw [List.isEmpty_eq_false_iff]
    exact List.append_ne_nil_of_right_ne_nil _ (List.cons_ne_nil _ _)
  · rw [List.singleton_append, hvalue, Nat.pow_zero, Nat.mul_one]
  · rw [leadingExponent, hdigits, List.length_cons]
    split <;> rename_i hsign <;> rw [decide_eq_true_eq] at hsign <;> omega

theorem exists_writtenAs {m : Magnitude} (h : d.Spells m) :
    ∃ whole fraction tail exponent zeros, d.WrittenAs whole fraction tail exponent zeros := by
  by_cases hposition : -5 ≤ d.leadingExponent ∧ d.leadingExponent ≤ 15
  · have hwhole := isWhole_positional h
    rcases Int.lt_or_le d.exponent 0 with hneg | hnonneg
    · exact ⟨_, _, _, _, _, writtenAs_fraction hposition hwhole hneg⟩
    · exact ⟨_, _, _, _, _, writtenAs_whole hposition hwhole hnonneg⟩
  · obtain ⟨whole, fraction, tail, exponent, hwritten⟩ := exists_writtenAs_scientific hposition
    exact ⟨whole, fraction, tail, exponent, 0, hwritten⟩

theorem WrittenAs.scaled? {whole fraction tail : List Char} {exponent : Int} {zeros : Nat}
    {m : Magnitude} (h : d.WrittenAs whole fraction tail exponent zeros) (hspells : d.Spells m)
    (hshort : d.IsShort) : Numeral.scaled? whole fraction exponent = some m := by
  have hhigh := hshort.exponent_le hspells
  have hlow := hshort.2
  have hzeros := h.zeros_le
  have hexponent := h.exponent_eq
  have hvalue : value (whole ++ fraction) ≤ 2 ^ 53 := by
    rw [h.value_eq]
    exact Nat.le_trans (Nat.mul_le_mul_left _ (Nat.pow_le_pow_right (by decide) hzeros)) hshort.1
  rw [Numeral.scaled?_of_le hvalue (by omega) (by omega), h.value_eq, hexponent,
    magnitude?_shift (by omega) hhigh]
  exact hspells.magnitude

end Decimal

namespace Number

theorem isNumeral_document? {x : Number} {text : List Char} (h : x.document? = some text) :
    Json.IsNumeral text := by
  cases x with
  | infinite negative => cases h
  | nan => cases h
  | finite negative m =>
    obtain ⟨whole, fraction, tail, exponent, zeros, hwritten⟩ :=
      Decimal.exists_writtenAs (m.spells_shortest .toEven)
    cases h
    rw [hwritten.layout]
    exact Json.isNumeral_of_parts hwritten.isWhole hwritten.isDigit hwritten.isExponent

end Number

end StoryScript
