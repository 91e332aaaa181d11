import StoryScript.Proofs.Text.Literal

/-! # The end of a literal

A literal ends at the first quote of its kind that is not escaped, which can be told from the
number of backslashes in front of each quote. So the units of a literal and the place of its end
determine each other, and a text in which the quote and the backslash are escaped is read back
whatever follows it.
-/

namespace StoryScript.Text.Quoted

variable {quote c : Char} {s t units content rest : List Char}

def trailingBackslashes (s : List Char) : Nat :=
  (s.reverse.takeWhile (· == '\\')).length

/-- Whether a text inside a literal escapes the character after it: an odd number of backslashes
stands at its end. -/
def Escapes (s : List Char) : Prop :=
  trailingBackslashes s % 2 = 1

instance (s : List Char) : Decidable (Escapes s) :=
  inferInstanceAs (Decidable (_ = _))

@[simp] theorem not_escapes_nil : ¬Escapes [] := by
  decide

theorem escapes_cons_iff (hbackslash : c ≠ '\\') : Escapes (c :: s) ↔ Escapes s := by
  simp only [Escapes, trailingBackslashes, List.reverse_cons, List.takeWhile_append]
  split
  · rename_i hall
    simp [hbackslash, hall]
  · rfl

theorem escapes_pair_iff : Escapes ('\\' :: c :: s) ↔ Escapes s := by
  simp only [Escapes, trailingBackslashes, List.reverse_cons, List.append_assoc,
    List.takeWhile_append]
  split
  · rename_i hall
    by_cases hc : c = '\\'
    · simp [hc, hall]
    · simp [hc, hall]
  · rfl

/-- Whether the quote after these characters of a literal is the first one that is not escaped. -/
structure IsUpToClosing (quote : Char) (units : List Char) : Prop where
  closing : ¬Escapes units
  earlier : ∀ before after, units = before ++ quote :: after → Escapes before

namespace IsUpToClosing

theorem nil (quote : Char) : IsUpToClosing quote [] where
  closing := not_escapes_nil
  earlier := by simp

theorem cons_iff (hbackslash : c ≠ '\\') :
    IsUpToClosing quote (c :: units) ↔ c ≠ quote ∧ IsUpToClosing quote units := by
  constructor
  · intro h
    refine ⟨?_, mt (escapes_cons_iff hbackslash).2 h.closing, fun before after heq => ?_⟩
    · rintro rfl
      exact not_escapes_nil (h.earlier [] units rfl)
    · exact (escapes_cons_iff hbackslash).1 (h.earlier (c :: before) after (by rw [heq]; rfl))
  · rintro ⟨hquote, h⟩
    refine ⟨mt (escapes_cons_iff hbackslash).1 h.closing, fun before after heq => ?_⟩
    cases before with
    | nil => exact absurd (List.cons.inj heq).1 hquote
    | cons first before =>
      obtain ⟨rfl, hunits⟩ := List.cons.inj heq
      exact (escapes_cons_iff hbackslash).2 (h.earlier before after hunits)

theorem pair_iff (hquote : quote ≠ '\\') :
    IsUpToClosing quote ('\\' :: c :: units) ↔ IsUpToClosing quote units := by
  constructor
  · intro h
    refine ⟨mt escapes_pair_iff.2 h.closing, fun before after heq => ?_⟩
    exact escapes_pair_iff.1 (h.earlier ('\\' :: c :: before) after (by rw [heq]; rfl))
  · intro h
    refine ⟨mt escapes_pair_iff.1 h.closing, fun before after heq => ?_⟩
    match before with
    | [] => exact absurd (List.cons.inj heq).1.symm hquote
    | [first] =>
      obtain ⟨rfl, -⟩ := List.cons.inj heq
      decide
    | first :: second :: before =>
      obtain ⟨rfl, hpair⟩ := List.cons.inj heq
      obtain ⟨rfl, hunits⟩ := List.cons.inj hpair
      exact escapes_pair_iff.2 (h.earlier before after hunits)

theorem exists_units (hquote : quote ≠ '\\') :
    ∀ {units : List Char}, IsUpToClosing quote units → ∃ content, Units quote units content
  | [], _ => ⟨[], .nil⟩
  | [c], h => by
    have hbackslash : c ≠ '\\' := by
      rintro rfl
      exact h.closing (by decide)
    obtain ⟨hne, -⟩ := (cons_iff hbackslash).1 h
    exact ⟨[c], .plain hne hbackslash .nil⟩
  | c :: d :: units, h => by
    by_cases hbackslash : c = '\\'
    · subst hbackslash
      obtain ⟨content, hunits⟩ := exists_units hquote ((pair_iff hquote).1 h)
      exact ⟨escaped d :: content, hunits.escaped⟩
    · obtain ⟨hne, hlater⟩ := (cons_iff hbackslash).1 h
      obtain ⟨content, hunits⟩ := exists_units hquote hlater
      exact ⟨c :: content, .plain hne hbackslash hunits⟩

end IsUpToClosing

theorem Units.isUpToClosing (hquote : quote ≠ '\\') (h : Units quote units content) :
    IsUpToClosing quote units := by
  induction h with
  | nil => exact .nil quote
  | plain hne hbackslash _ ih => exact (IsUpToClosing.cons_iff hbackslash).2 ⟨hne, ih⟩
  | newline _ ih => exact (IsUpToClosing.pair_iff hquote).2 ih
  | tab _ ih => exact (IsUpToClosing.pair_iff hquote).2 ih
  | escape _ _ _ ih => exact (IsUpToClosing.pair_iff hquote).2 ih

theorem units_escape (hquote : isQuote quote = true) (s : List Char) :
    Units quote (escape quote s) s := by
  induction s with
  | nil => exact .nil
  | cons c s ih =>
    rw [escape, List.flatMap_cons]
    split
    · rename_i hmarked
      have hletter : c ≠ 'n' ∧ c ≠ 't' := by
        simp only [isQuote, Bool.or_eq_true, beq_iff_eq] at hquote
        simp only [Bool.or_eq_true, decide_eq_true_eq] at hmarked
        rcases hmarked with rfl | rfl
        · rcases hquote with rfl | rfl <;> decide
        · decide
      exact .escape hletter.1 hletter.2 ih
    · rename_i hplain
      simp only [Bool.or_eq_true, decide_eq_true_eq, not_or] at hplain
      exact .plain hplain.1 hplain.2 ih

theorem read?_eq_some_iff :
    read? t = some (content, rest) ↔
      ∃ quote units, isQuote quote = true ∧ t = quote :: (units ++ quote :: rest) ∧
        Units quote units content := by
  constructor
  · intro h
    cases t with
    | nil => cases h
    | cons quote s =>
      rw [read?] at h
      split at h
      · rename_i hquote
        cases hbody : readBody quote s with
        | error fault =>
          rw [hbody] at h
          cases h
        | ok found =>
          rw [hbody] at h
          cases h
          obtain ⟨units, rfl, hunits⟩ := exists_units_of_readBody hbody
          exact ⟨quote, units, hquote, rfl, hunits⟩
      · cases h
  · rintro ⟨quote, units, hquote, rfl, hunits⟩
    rw [read?, if_pos hquote, hunits.readBody_append hquote]
    rfl

/-- A literal is read exactly where units stand between two equal quotes, and its content is what
the units stand for. So it ends at the first quote of its kind that is not escaped, what is left is
the end of the text, and a text that has been escaped is read back. -/
theorem read?_iff_units (t content rest : List Char) :
    (read? t = some (content, rest) ↔
      ∃ quote units, isQuote quote = true ∧ t = quote :: (units ++ quote :: rest) ∧
        Units quote units content) ∧
    ((∃ found, read? t = some (found, rest)) ↔
      ∃ quote units, isQuote quote = true ∧ t = quote :: (units ++ quote :: rest) ∧
        IsUpToClosing quote units) ∧
    (read? t = some (content, rest) → rest <:+ t) ∧
    ∀ quote s, isQuote quote = true →
      read? (quote :: (escape quote s ++ quote :: rest)) = some (s, rest) := by
  refine ⟨read?_eq_some_iff, ⟨?_, ?_⟩, fun h => ?_, fun quote s hquote => ?_⟩
  · rintro ⟨found, h⟩
    obtain ⟨quote, units, hquote, ht, hunits⟩ := read?_eq_some_iff.1 h
    exact ⟨quote, units, hquote, ht, hunits.isUpToClosing (ne_backslash_of_isQuote hquote)⟩
  · rintro ⟨quote, units, hquote, ht, hclosing⟩
    obtain ⟨found, hunits⟩ := hclosing.exists_units (ne_backslash_of_isQuote hquote)
    exact ⟨found, read?_eq_some_iff.2 ⟨quote, units, hquote, ht, hunits⟩⟩
  · obtain ⟨quote, units, -, rfl, -⟩ := read?_eq_some_iff.1 h
    exact ⟨quote :: (units ++ [quote]), by simp⟩
  · exact read?_eq_some_iff.2 ⟨quote, escape quote s, hquote, rfl, units_escape hquote s⟩

theorem read?_iff_units_apostrophe :
    isQuote '\'' = true ∧
      read? ('\'' :: (escape '\'' "it's \\n".toList ++ '\'' :: " at left".toList)) =
        some ("it's \\n".toList, " at left".toList) ∧
      " at left".toList <:+
        '\'' :: (escape '\'' "it's \\n".toList ++ '\'' :: " at left".toList) := by
  have hlaws := read?_iff_units
    ('\'' :: (escape '\'' "it's \\n".toList ++ '\'' :: " at left".toList))
    "it's \\n".toList " at left".toList
  have hread := hlaws.2.2.2 '\'' "it's \\n".toList rfl
  exact ⟨rfl, hread, hlaws.2.2.1 hread⟩

example : read? "\"a\\\\\" b\"".toList = some ("a\\".toList, " b\"".toList) := by
  decide

end StoryScript.Text.Quoted
