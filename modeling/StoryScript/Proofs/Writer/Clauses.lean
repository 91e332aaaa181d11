import StoryScript.Proofs.Number.Text
import StoryScript.Proofs.Writer.Basic

/-! # Clauses that are written

A phrase and the clauses written after it are taken apart at the keywords of the clauses. The text
of a number is one word, so a number can be the phrase of a clause.
-/

namespace StoryScript.Script

open Text

variable {keywords : List (List Char)} (keyword : String) {s rest : List Char}
  {t? : Option (List Char)}

theorem isSpaced_clause (hrest : IsSpaced rest) : IsSpaced (clause keyword t? ++ rest) := by
  cases t? with
  | none => exact hrest
  | some t => exact isSpaced_cons

theorem endsPlain_append_clause (hs : EndsPlain s) (ht : ∀ t ∈ t?, IsPhrase keywords t) :
    EndsPlain (s ++ clause keyword t?) := by
  cases t? with
  | none => rwa [clause, List.append_nil]
  | some t =>
    have hphrase := ht t rfl
    have hphrase_end := endsPlain_append (s := s ++ ' ' :: (keyword.toList ++ [' ']))
      hphrase.nonempty (endsPlain_of_isPhrase hphrase)
    simpa [clause] using hphrase_end

theorem ofWords_words_clause (hkeyword : keyword.toList ∈ keywords) (hword : IsWord keyword.toList)
    (ht : ∀ t ∈ t?, IsPhrase keywords t) (hrest : IsSpaced rest)
    (hsubject : (Clauses.ofWords keywords (words rest)).subject = []) :
    Clauses.ofWords keywords (words (clause keyword t? ++ rest)) =
      ⟨[], (t?.map fun t => (keyword.toList, words t)).toList ++
        (Clauses.ofWords keywords (words rest)).stretches⟩ := by
  cases t? with
  | none =>
    rw [clause, List.nil_append, ← hsubject]
    rfl
  | some t =>
    have hphrase := ht t rfl
    rw [clause, List.cons_append, List.append_assoc, List.cons_append, words_space,
      words_append hword isSpaced_cons, words_space, words_append_of_isPhrase hphrase hrest,
      Clauses.ofWords_keyword hkeyword,
      Clauses.ofWords_append fun word hmem => (hphrase.words word hmem).2, hsubject,
      List.append_nil]
    rfl

theorem read_phrase_append (hs : IsPhrase keywords s) (hrest : IsSpaced rest)
    (hsubject : (Clauses.ofWords keywords (words rest)).subject = []) :
    Clauses.read keywords (s ++ rest) =
      ⟨words s, (Clauses.ofWords keywords (words rest)).stretches⟩ := by
  rw [Clauses.read, words_append_of_isPhrase hs hrest,
    Clauses.ofWords_append fun word hmem => (hs.words word hmem).2, hsubject, List.append_nil]

end StoryScript.Script

namespace StoryScript

open Text

namespace Number

variable {n : Number}

theorem eq_minus_or_of_mem_text (h : n.isFinite = true) {c : Char} (hc : c ∈ n.text) :
    c = '-' ∨ isNameChar c = true := by
  cases n with
  | infinite negative => cases h
  | nan => cases h
  | finite negative m =>
    rcases List.mem_append.1 hc with hc | hc
    · cases negative with
      | false => cases hc
      | true => exact .inl (List.mem_singleton.1 hc)
    · rcases Decimal.isDigit_or_eq_point_of_mem_plain hc with hc | rfl
      · exact .inr (isNameChar_of_isDigit hc)
      · exact .inr (by decide +kernel)

theorem text_ne_nil (h : n.isFinite = true) : n.text ≠ [] := by
  cases n with
  | infinite negative => cases h
  | nan => cases h
  | finite negative m =>
    obtain ⟨first, rest, hplain, -⟩ := (m.shortest .up).exists_plain_eq_cons
    rw [text, hplain]
    exact List.append_ne_nil_of_right_ne_nil _ (List.cons_ne_nil _ _)

theorem isWord_text (h : n.isFinite = true) : IsWord n.text := by
  refine ⟨text_ne_nil h, fun c hc => ?_⟩
  rcases eq_minus_or_of_mem_text h hc with rfl | hname
  · decide
  · refine ⟨isBlank_of_isNameChar hname, ?_⟩
    by_contra hquote
    rw [isNameChar_of_isQuote (by simpa using hquote)] at hname
    cases hname

theorem isPhrase_text (h : n.isFinite = true) {keyword : List Char}
    (hkeyword : ofText? keyword = none) : IsPhrase [keyword] n.text := by
  have hphrase : IsPhrase [keyword] (unwords [n.text]) := by
    refine isPhrase_unwords (List.cons_ne_nil _ _) fun word hword => ?_
    obtain rfl := List.mem_singleton.1 hword
    refine ⟨isWord_text h, fun hmem => ?_⟩
    rw [← List.mem_singleton.1 hmem, ofText?_text h] at hkeyword
    cases hkeyword
  rwa [unwords_singleton] at hphrase

end Number

end StoryScript
