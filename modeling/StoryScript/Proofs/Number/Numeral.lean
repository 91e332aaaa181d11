import StoryScript.Proofs.Number.Text
import StoryScript.Proofs.Text.Literal

/-! # The grammar of numerals

A text denotes a number if it is a decimal numeral, or a sign and the word for infinity. What is
read off the front of a text denotes the number that is read, and a numeral is read as a whole in
front of anything that cannot stand in a name. A text as a whole is a number exactly if it is the
numeral of a finite one.
-/

namespace StoryScript.Numeral

open Text

/-- A sign, which may be left out; `true` for minus. -/
inductive IsSign : List Char → Bool → Prop where
  | none : IsSign [] false
  | plus : IsSign ['+'] false
  | minus : IsSign ['-'] true

/-- Digits and at most one point, with the digits before and after the point. -/
inductive IsMantissa : List Char → List Char → List Char → Prop where
  | whole {whole : List Char} (hne : whole ≠ []) (hwhole : ∀ c ∈ whole, c.isDigit = true) :
      IsMantissa whole whole []
  | point {whole fraction : List Char} (hne : whole ≠ [])
      (hwhole : ∀ c ∈ whole, c.isDigit = true) (hfraction : ∀ c ∈ fraction, c.isDigit = true) :
      IsMantissa (whole ++ '.' :: fraction) whole fraction
  | fraction {fraction : List Char} (hne : fraction ≠ [])
      (hfraction : ∀ c ∈ fraction, c.isDigit = true) : IsMantissa ('.' :: fraction) [] fraction

inductive IsScale : List Char → Int → Prop where
  | none : IsScale [] 0
  | some {mark : Char} {sign digits : List Char} {negative : Bool}
      (hmark : mark = 'e' ∨ mark = 'E') (hsign : IsSign sign negative) (hne : digits ≠ [])
      (hdigits : ∀ c ∈ digits, c.isDigit = true) :
      IsScale (mark :: (sign ++ digits))
        (if negative then -(value digits : Int) else value digits)

/-- The word for infinity in any letter case, in full or cut after three letters. -/
def IsInfinity (word : List Char) : Prop :=
  word.map Char.toLower = ['i', 'n', 'f'] ∨
    word.map Char.toLower = ['i', 'n', 'f', 'i', 'n', 'i', 't', 'y']

/-- A text that denotes a number. A decimal denotes the number nearest to it. -/
inductive Denotes : List Char → Number → Prop where
  | decimal {sign mantissa whole fraction scale : List Char} {negative : Bool} {exponent : Int}
      (hsign : IsSign sign negative) (hmantissa : IsMantissa mantissa whole fraction)
      (hscale : IsScale scale exponent) :
      Denotes (sign ++ (mantissa ++ scale))
        (.withSign negative
          (Decimal.magnitude? ⟨value (whole ++ fraction), exponent - fraction.length⟩))
  | infinity {sign word : List Char} {negative : Bool} (hsign : IsSign sign negative)
      (hne : sign ≠ []) (hword : IsInfinity word) : Denotes (sign ++ word) (.infinite negative)

variable {s t rest : List Char}

theorem exists_cons_of_isInfinity {word : List Char} (h : IsInfinity word) :
    ∃ first more, word = first :: more ∧ first.toLower = 'i' := by
  cases word with
  | nil => rcases h with h | h <;> cases h
  | cons first more =>
    refine ⟨first, more, rfl, ?_⟩
    rcases h with h | h <;> exact (List.cons.inj h).1

section Sound

theorem exists_sign_of_readSign {negative : Bool} (h : readSign s = (negative, t)) :
    ∃ sign, s = sign ++ t ∧ IsSign sign negative := by
  unfold readSign at h
  split at h <;> cases h
  · exact ⟨['-'], rfl, .minus⟩
  · exact ⟨['+'], rfl, .plus⟩
  · exact ⟨[], rfl, .none⟩

theorem eq_append_of_readDigits {digits : List Char} (h : readDigits s = (digits, rest)) :
    s = digits ++ rest ∧ ∀ c ∈ digits, c.isDigit = true :=
  have hspan := span_eq_iff.1 h
  ⟨hspan.1, hspan.2.1⟩

theorem exists_scale_of_readExponent {exponent : Int}
    (h : readExponent s = .ok (exponent, rest)) :
    ∃ scale, s = scale ++ rest ∧ IsScale scale exponent := by
  cases s with
  | nil =>
    cases h
    exact ⟨[], rfl, .none⟩
  | cons mark s =>
    rw [readExponent] at h
    split at h
    · rename_i hmark
      split at h
      rename_i negative t hread
      obtain ⟨sign, rfl, hsign⟩ := exists_sign_of_readSign hread
      split at h
      · cases h
      · rename_i digits after hne hread
        obtain ⟨rfl, hdigits⟩ := eq_append_of_readDigits hread
        cases h
        have hmark : mark = 'e' ∨ mark = 'E' := by simpa using hmark
        refine ⟨mark :: (sign ++ digits), ?_, .some hmark hsign hne hdigits⟩
        rw [List.cons_append, List.append_assoc]
    · cases h
      exact ⟨[], rfl, .none⟩

theorem exists_scale_of_readScaled {whole fraction : List Char} {decimal : Decimal}
    (h : readScaled whole fraction s = .ok (decimal, rest)) :
    ∃ scale exponent, s = scale ++ rest ∧ IsScale scale exponent ∧
      decimal = ⟨value (whole ++ fraction), exponent - fraction.length⟩ := by
  rw [readScaled] at h
  split at h
  · cases h
  · rename_i exponent after hread
    cases h
    obtain ⟨scale, rfl, hscale⟩ := exists_scale_of_readExponent hread
    exact ⟨scale, exponent, rfl, hscale, rfl⟩

theorem exists_mantissa_of_readDecimal {decimal : Decimal}
    (h : readDecimal s = .ok (decimal, rest)) :
    ∃ mantissa whole fraction scale exponent, s = mantissa ++ (scale ++ rest) ∧
      IsMantissa mantissa whole fraction ∧ IsScale scale exponent ∧
      decimal = ⟨value (whole ++ fraction), exponent - fraction.length⟩ := by
  unfold readDecimal at h
  split at h
  · split at h
    · cases h
    · rename_i fraction after hne hread
      obtain ⟨rfl, hfraction⟩ := eq_append_of_readDigits hread
      obtain ⟨scale, exponent, rfl, hscale, rfl⟩ := exists_scale_of_readScaled h
      exact ⟨_, [], fraction, scale, exponent, rfl, .fraction hne hfraction, hscale, rfl⟩
  · split at h
    · cases h
    · rename_i whole after hne hread
      split at h
      rename_i fraction after' hread'
      obtain ⟨rfl, hwhole⟩ := eq_append_of_readDigits hread
      obtain ⟨rfl, hfraction⟩ := eq_append_of_readDigits hread'
      obtain ⟨scale, exponent, rfl, hscale, rfl⟩ := exists_scale_of_readScaled h
      refine ⟨_, whole, fraction, scale, exponent, ?_, .point hne hwhole hfraction, hscale, rfl⟩
      rw [List.append_assoc, List.cons_append]
    · rename_i whole after hne hpoint hread
      obtain ⟨rfl, hwhole⟩ := eq_append_of_readDigits hread
      obtain ⟨scale, exponent, rfl, hscale, rfl⟩ := exists_scale_of_readScaled h
      exact ⟨whole, whole, [], scale, exponent, rfl, .whole hne hwhole, hscale, rfl⟩

theorem exists_word_of_afterLetters? {letters : List Char}
    (h : afterLetters? letters s = some rest) :
    ∃ word, s = word ++ rest ∧ word.map Char.toLower = letters := by
  fun_induction afterLetters? letters s with
  | case1 s =>
    cases h
    exact ⟨[], rfl, rfl⟩
  | case2 => cases h
  | case3 letters c s ih =>
    obtain ⟨word, rfl, hword⟩ := ih h
    exact ⟨c :: word, rfl, by rw [List.map_cons, hword]⟩
  | case4 => cases h

theorem exists_word_of_afterInfinity? (h : afterInfinity? s = some rest) :
    ∃ word, s = word ++ rest ∧ IsInfinity word := by
  obtain ⟨after, hread, rfl⟩ := Option.map_eq_some_iff.1 h
  obtain ⟨short, rfl, hshort⟩ := exists_word_of_afterLetters? hread
  cases hlong : afterLetters? ['i', 'n', 'i', 't', 'y'] after with
  | none => exact ⟨short, rfl, .inl hshort⟩
  | some rest =>
    obtain ⟨more, rfl, hmore⟩ := exists_word_of_afterLetters? hlong
    refine ⟨short ++ more, (List.append_assoc _ _ _).symm, .inr ?_⟩
    rw [List.map_append, hshort, hmore]
    rfl

/-- What is read as a number denotes it, unless it is the word for infinity without a sign. -/
theorem exists_denotes_of_read {n : Number} (h : read s = .ok (n, rest))
    (hfirst : ∀ c ∈ s.head?, c.toLower ≠ 'i') : ∃ text, s = text ++ rest ∧ Denotes text n := by
  rw [read] at h
  split at h
  rename_i negative t hread
  obtain ⟨sign, rfl, hsign⟩ := exists_sign_of_readSign hread
  split at h
  · rename_i after hinfinity
    cases h
    obtain ⟨word, rfl, hword⟩ := exists_word_of_afterInfinity? hinfinity
    refine ⟨sign ++ word, (List.append_assoc _ _ _).symm, .infinity hsign ?_ hword⟩
    rintro rfl
    obtain ⟨first, more, rfl, hlower⟩ := exists_cons_of_isInfinity hword
    exact hfirst first rfl hlower
  · split at h
    · cases h
    · rename_i decimal after hdecimal
      cases h
      obtain ⟨mantissa, whole, fraction, scale, exponent, rfl, hmantissa, hscale, rfl⟩ :=
        exists_mantissa_of_readDecimal hdecimal
      refine ⟨sign ++ (mantissa ++ scale), ?_, .decimal hsign hmantissa hscale⟩
      simp only [List.append_assoc]

end Sound

section Faults

variable {unread : List Char}

theorem exists_scale_of_readExponent_error (h : readExponent s = .error unread) :
    ∃ before exponent, s = before ++ unread ∧ IsScale (before ++ ['1']) exponent := by
  cases s with
  | nil => cases h
  | cons mark s =>
    rw [readExponent] at h
    split at h
    · rename_i hmark
      split at h
      rename_i negative t hread
      obtain ⟨sign, rfl, hsign⟩ := exists_sign_of_readSign hread
      split at h <;> cases h
      have hmark : mark = 'e' ∨ mark = 'E' := by simpa using hmark
      have hdigit : ∀ c ∈ ['1'], c.isDigit = true := List.forall_mem_singleton.2 rfl
      exact ⟨mark :: sign, _, rfl, .some hmark hsign (List.cons_ne_nil _ _) hdigit⟩
    · cases h

theorem exists_scale_of_readScaled_error {whole fraction : List Char}
    (h : readScaled whole fraction s = .error unread) :
    ∃ before exponent, s = before ++ unread ∧ IsScale (before ++ ['1']) exponent := by
  rw [readScaled] at h
  split at h <;> cases h
  rename_i hread
  exact exists_scale_of_readExponent_error hread

/-- Where a digit of a decimal is missing, any digit completes it. -/
theorem exists_mantissa_of_readDecimal_error (h : readDecimal s = .error unread) :
    ∃ mantissa whole fraction before scale exponent,
      s = before ++ unread ∧ before ++ ['1'] = mantissa ++ scale ∧
      IsMantissa mantissa whole fraction ∧ IsScale scale exponent := by
  have hdigit : ∀ c ∈ ['1'], c.isDigit = true := List.forall_mem_singleton.2 rfl
  unfold readDecimal at h
  split at h
  · split at h
    · cases h
      exact ⟨_, [], ['1'], ['.'], [], 0, rfl, rfl, .fraction (List.cons_ne_nil _ _) hdigit, .none⟩
    · rename_i fraction after hne hread
      obtain ⟨rfl, hfraction⟩ := eq_append_of_readDigits hread
      obtain ⟨before, exponent, rfl, hscale⟩ := exists_scale_of_readScaled_error h
      exact ⟨_, [], fraction, '.' :: (fraction ++ before), _, exponent, by simp, by simp,
        .fraction hne hfraction, hscale⟩
  · split at h
    · cases h
      exact ⟨_, ['1'], [], [], [], 0, rfl, rfl, .whole (List.cons_ne_nil _ _) hdigit, .none⟩
    · rename_i whole after hne hread
      split at h
      rename_i fraction after' hread'
      obtain ⟨rfl, hwhole⟩ := eq_append_of_readDigits hread
      obtain ⟨rfl, hfraction⟩ := eq_append_of_readDigits hread'
      obtain ⟨before, exponent, rfl, hscale⟩ := exists_scale_of_readScaled_error h
      exact ⟨_, whole, fraction, whole ++ '.' :: (fraction ++ before), _, exponent, by simp,
        by simp, .point hne hwhole hfraction, hscale⟩
    · rename_i whole after hne hpoint hread
      obtain ⟨rfl, hwhole⟩ := eq_append_of_readDigits hread
      obtain ⟨before, exponent, rfl, hscale⟩ := exists_scale_of_readScaled_error h
      exact ⟨whole, whole, [], whole ++ before, _, exponent, by simp, by simp,
        .whole hne hwhole, hscale⟩

theorem exists_denotes_of_read_error (h : read s = .error unread) :
    ∃ before n, s = before ++ unread ∧ Denotes (before ++ ['1']) n := by
  rw [read] at h
  split at h
  rename_i negative t hread
  obtain ⟨sign, rfl, hsign⟩ := exists_sign_of_readSign hread
  split at h
  · cases h
  · split at h <;> cases h
    rename_i hdecimal
    obtain ⟨mantissa, whole, fraction, before, scale, exponent, rfl, hbefore, hmantissa, hscale⟩ :=
      exists_mantissa_of_readDecimal_error hdecimal
    have hdenotes := Denotes.decimal hsign hmantissa hscale
    rw [← hbefore, ← List.append_assoc] at hdenotes
    exact ⟨sign ++ before, _, (List.append_assoc _ _ _).symm, hdenotes⟩

end Faults

section Complete

theorem eq_of_toLower_eq {c : Char} (h : c.toLower = 'i') : c = 'i' ∨ c = 'I' := by
  unfold Char.toLower at h
  split at h
  · have hval : c.val + ('a'.val - 'A'.val) = 'I'.val + ('a'.val - 'A'.val) :=
      congrArg Char.val h
    exact .inr (Char.ext ((UInt32.add_left_inj _).1 hval))
  · exact .inl h

theorem readSign_append {sign : List Char} {negative : Bool} {first : Char}
    (hsign : IsSign sign negative) (hfirst : isNameChar first = true) :
    readSign (sign ++ first :: t) = (negative, first :: t) := by
  cases hsign with
  | plus => rfl
  | minus => rfl
  | none =>
    rw [List.nil_append]
    unfold readSign
    split
    · rename_i heq
      cases heq
      cases hfirst.symm.trans (isNameChar_of_ascii (by decide))
    · rename_i heq
      cases heq
      cases hfirst.symm.trans (isNameChar_of_ascii (by decide))
    · rfl

theorem readExponent_append {scale : List Char} {exponent : Int} (hscale : IsScale scale exponent)
    (hrest : EndsName rest) : readExponent (scale ++ rest) = .ok (exponent, rest) := by
  cases hscale with
  | none =>
    cases rest with
    | nil => rfl
    | cons c rest =>
      have hsmall : c ≠ 'e' := hrest.ne_of_isNameChar rfl (isNameChar_of_ascii (by decide))
      have hlarge : c ≠ 'E' := hrest.ne_of_isNameChar rfl (isNameChar_of_ascii (by decide))
      simp [readExponent, hsmall, hlarge]
  | some hmark hsign hne hdigits =>
    have hread := readDigits_append hdigits hrest.isDigit_eq_false
    obtain ⟨first, more, rfl⟩ := List.exists_cons_of_ne_nil hne
    have hfirst := isNameChar_of_isDigit (hdigits first List.mem_cons_self)
    rw [List.cons_append] at hread
    rw [List.cons_append, List.append_assoc, List.cons_append, readExponent,
      if_pos (by simpa using hmark), readSign_append hsign hfirst]
    simp only [hread]

theorem readScaled_append {whole fraction scale : List Char} {exponent : Int}
    (hscale : IsScale scale exponent) (hrest : EndsName rest) :
    readScaled whole fraction (scale ++ rest) =
      .ok (⟨value (whole ++ fraction), exponent - fraction.length⟩, rest) := by
  rw [readScaled, readExponent_append hscale hrest]

theorem not_digit_of_isScale {scale : List Char} {exponent : Int} (hscale : IsScale scale exponent)
    (hrest : EndsName rest) : ∀ c ∈ (scale ++ rest).head?, c.isDigit = false ∧ c ≠ '.' := by
  cases hscale with
  | none =>
    exact fun c hc =>
      ⟨hrest.isDigit_eq_false c hc, hrest.ne_of_isNameChar hc (isNameChar_of_ascii (by decide))⟩
  | some hmark =>
    rintro _ ⟨⟩
    rcases hmark with rfl | rfl <;> decide

theorem readDecimal_append_scale {mantissa whole fraction scale : List Char} {exponent : Int}
    (hmantissa : IsMantissa mantissa whole fraction) (hscale : IsScale scale exponent)
    (hrest : EndsName rest) :
    readDecimal (mantissa ++ (scale ++ rest)) =
      .ok (⟨value (whole ++ fraction), exponent - fraction.length⟩, rest) := by
  have hafter := not_digit_of_isScale hscale hrest
  cases hmantissa with
  | whole hne hwhole => rw [readDecimal_append hne hwhole hafter, readScaled_append hscale hrest]
  | point hne hwhole hfraction =>
    rw [List.append_assoc, List.cons_append, readDecimal_append_point hne hwhole,
      readDigits_append hfraction fun c hc => (hafter c hc).1, readScaled_append hscale hrest]
  | fraction hne hfraction =>
    rw [List.cons_append, readDecimal, readDigits_append hfraction fun c hc => (hafter c hc).1]
    obtain ⟨first, more, rfl⟩ := List.exists_cons_of_ne_nil hne
    exact readScaled_append hscale hrest

theorem afterLetters?_append {letters word : List Char} (h : word.map Char.toLower = letters) :
    afterLetters? letters (word ++ rest) = some rest := by
  induction word generalizing letters with
  | nil =>
    cases h
    simp only [List.map_nil, List.nil_append, afterLetters?]
  | cons c word ih =>
    cases h
    rw [List.map_cons, List.cons_append, afterLetters?, if_pos rfl, ih rfl]

theorem afterInfinity?_append {word : List Char} (hword : IsInfinity word) (hrest : EndsName rest) :
    afterInfinity? (word ++ rest) = some rest := by
  rcases hword with hshort | hlong
  · have hmore : afterLetters? ['i', 'n', 'i', 't', 'y'] rest = none := by
      cases rest with
      | nil => rfl
      | cons c rest =>
        refine if_neg fun hlower => ?_
        rcases eq_of_toLower_eq hlower.symm with rfl | rfl <;>
          exact hrest.ne_of_isNameChar rfl (isNameChar_of_ascii (by decide)) rfl
    rw [afterInfinity?, afterLetters?_append hshort, Option.map_some, hmore, Option.getD_none]
  · have hsplit : word.map Char.toLower = ['i', 'n', 'f'] ++ ['i', 'n', 'i', 't', 'y'] := hlong
    obtain ⟨short, more, rfl, hshort, hmore⟩ := List.map_eq_append_iff.1 hsplit
    rw [afterInfinity?, List.append_assoc, afterLetters?_append hshort, Option.map_some,
      afterLetters?_append hmore, Option.getD_some]

theorem exists_cons_of_isMantissa {mantissa whole fraction : List Char}
    (h : IsMantissa mantissa whole fraction) :
    ∃ first more, mantissa = first :: more ∧ (first.isDigit = true ∨ first = '.') := by
  cases h with
  | whole hne hwhole =>
    obtain ⟨first, more, rfl⟩ := List.exists_cons_of_ne_nil hne
    exact ⟨first, more, rfl, .inl (hwhole first List.mem_cons_self)⟩
  | point hne hwhole =>
    obtain ⟨first, more, rfl⟩ := List.exists_cons_of_ne_nil hne
    exact ⟨first, _, rfl, .inl (hwhole first List.mem_cons_self)⟩
  | fraction => exact ⟨'.', _, rfl, .inr rfl⟩

/-- A text that denotes a number is read in front of anything that cannot stand in a name. -/
theorem Denotes.read_append {text : List Char} {n : Number} (h : Denotes text n)
    (hrest : EndsName rest) : read (text ++ rest) = .ok (n, rest) := by
  cases h with
  | decimal hsign hmantissa hscale =>
    have hread := readDecimal_append_scale hmantissa hscale hrest
    obtain ⟨first, more, rfl, hfirst⟩ := exists_cons_of_isMantissa hmantissa
    obtain ⟨hname, hlower⟩ : isNameChar first = true ∧ first.toLower ≠ 'i' := by
      rcases hfirst with hdigit | rfl
      · exact ⟨isNameChar_of_isDigit hdigit, toLower_ne_of_isDigit hdigit⟩
      · exact ⟨isNameChar_of_ascii (by decide), by decide⟩
    rw [List.cons_append] at hread
    rw [read, List.append_assoc, List.append_assoc, List.cons_append, readSign_append hsign hname]
    simp only [afterInfinity?_cons hlower, hread]
  | infinity hsign hne hword =>
    have hread := afterInfinity?_append hword hrest
    obtain ⟨first, more, rfl, hlower⟩ := exists_cons_of_isInfinity hword
    have hname : isNameChar first = true := by
      rcases eq_of_toLower_eq hlower with rfl | rfl <;> exact isNameChar_of_ascii (by decide)
    rw [List.cons_append] at hread
    rw [read, List.append_assoc, List.cons_append, readSign_append hsign hname]
    simp only [hread]

end Complete

theorem Denotes.exists_cons {text : List Char} {n : Number} (h : Denotes text n) :
    ∃ first more, text = first :: more ∧ (first.isDigit = true ∨ first ∈ ['+', '-', '.']) := by
  cases h with
  | decimal hsign hmantissa =>
    obtain ⟨first, more, rfl, hfirst⟩ := exists_cons_of_isMantissa hmantissa
    cases hsign with
    | none => exact ⟨first, _, rfl, hfirst.imp_right (by rintro rfl; decide)⟩
    | plus => exact ⟨'+', _, rfl, by decide⟩
    | minus => exact ⟨'-', _, rfl, by decide⟩
  | infinity hsign hne =>
    cases hsign with
    | none => exact absurd rfl hne
    | plus => exact ⟨'+', _, rfl, by decide⟩
    | minus => exact ⟨'-', _, rfl, by decide⟩

section Finite

def IsFiniteNumeral (s : List Char) : Prop :=
  ∃ n, Denotes s n ∧ n.isFinite = true

variable {n : Number}

theorem toLower_ne_of_read (h : read s = .ok (n, rest))
    (hn : n.isFinite = true) : ∀ c ∈ s.head?, c.toLower ≠ 'i' := by
  intro c hc hlower
  cases s with
  | nil => cases hc
  | cons first s =>
    cases hc
    have hdecimal : ∃ fault, readDecimal (c :: s) = .error fault := by
      rcases eq_of_toLower_eq hlower with rfl | rfl <;> exact ⟨_, rfl⟩
    have hsign : readSign (c :: s) = (false, c :: s) := by
      rcases eq_of_toLower_eq hlower with rfl | rfl <;> rfl
    obtain ⟨fault, hfault⟩ := hdecimal
    rw [read, hsign] at h
    simp only [hfault] at h
    split at h <;> cases h
    cases hn

end Finite

end StoryScript.Numeral

namespace StoryScript.Number

open Numeral

variable {s : List Char} {n : Number}

theorem ofText?_eq_some_iff : ofText? s = some n ↔ Denotes s n ∧ n.isFinite = true := by
  constructor
  · intro h
    unfold ofText? at h
    split at h
    · rename_i found hread
      split at h <;> cases h
      rename_i hfinite
      obtain ⟨text, rfl, hdenotes⟩ :=
        exists_denotes_of_read hread (toLower_ne_of_read hread hfinite)
      rw [List.append_nil]
      exact ⟨hdenotes, hfinite⟩
    · cases h
  · rintro ⟨hdenotes, hfinite⟩
    have hread : Numeral.read (s ++ []) = .ok (n, []) := hdenotes.read_append nofun
    rw [List.append_nil] at hread
    rw [ofText?, hread]
    exact if_pos hfinite

theorem ofText?_eq_none_iff : ofText? s = none ↔ ¬IsFiniteNumeral s := by
  rw [Option.eq_none_iff_forall_ne_some, IsFiniteNumeral, not_exists]
  simp only [ne_eq, ofText?_eq_some_iff]

end StoryScript.Number
