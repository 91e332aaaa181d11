import StoryScript.Proofs.Number.Numeral
import StoryScript.Proofs.Text.Closing
import StoryScript.Proofs.Text.Trim
import StoryScript.Value

/-! # What a literal means

The right-hand side of an assignment means the text between its quotes if it is one quoted literal,
a truth value or a number if it is written as one, and itself otherwise. The value that a variable
is given agrees with this for every text but those that begin and end with the same quote without
being one literal: of these the outer quotes are taken off, although they belong to different
literals or the last one is escaped.
-/

namespace StoryScript

open Numeral

namespace Text

variable {s t : List Char}

theorem equalFoldingLatin_iff :
    equalFoldingLatin s t = true ↔ s.map foldLatin = t.map foldLatin := by
  fun_induction equalFoldingLatin s t with
  | case1 => simp
  | case2 c s d t ih => simp [ih]
  | case3 s t hnil hcons =>
    cases s with
    | nil => simpa [eq_comm] using hnil rfl
    | cons c s =>
      cases t with
      | nil => simp
      | cons d t => exact absurd rfl (hcons c s d t rfl)

end Text

namespace Value

open Text

/-- Whether a text begins and ends with the same quote, with these characters between. -/
def IsEnclosed (s inside : List Char) : Prop :=
  ∃ quote, Quoted.isQuote quote = true ∧ s = quote :: (inside ++ [quote])

/-- Whether a text is one quoted literal, with these characters between its quotes. -/
def IsLiteral (s inside : List Char) : Prop :=
  IsEnclosed s inside ∧ ∃ content, Quoted.read? s = some (content, [])

/-- Whether a text begins and ends with the same quote and is still not one quoted literal. -/
def IsMisquoted (s : List Char) : Prop :=
  ∃ inside, IsEnclosed s inside ∧ ¬IsLiteral s inside

def truthWord : Bool → List Char
  | true => ['t', 'r', 'u', 'e']
  | false => ['f', 'a', 'l', 's', 'e']

/-- The value that a text without blanks around it means. -/
inductive Means (s : List Char) : Value → Prop where
  | literal {inside : List Char} (h : IsLiteral s inside) : Means s (.text (.ofList inside))
  | truth {b : Bool} (h : s.map foldLatin = truthWord b) : Means s (.bool b)
  | number {n : Number} (h : Denotes s n) (hfinite : n.isFinite = true) : Means s (.number n)
  | other (hliteral : ∀ inside, ¬IsLiteral s inside) (htruth : ∀ b, s.map foldLatin ≠ truthWord b)
      (hnumber : ¬IsFiniteNumeral s) : Means s (.text (.ofList s))

variable {s inside : List Char} {value : Value}

/-- Between two equal quotes stands a literal exactly if the second one is the first that is not
escaped. -/
theorem isLiteral_iff {quote : Char} (hquote : Quoted.isQuote quote = true) :
    IsLiteral (quote :: (inside ++ [quote])) inside ↔ Quoted.IsUpToClosing quote inside := by
  have hbackslash := Quoted.ne_backslash_of_isQuote hquote
  constructor
  · rintro ⟨-, content, hread⟩
    obtain ⟨other, units, -, heq, hunits⟩ := Quoted.read?_eq_some_iff.1 hread
    obtain ⟨rfl, hinside⟩ := List.cons.inj heq
    obtain rfl := List.append_cancel_right hinside
    exact hunits.isUpToClosing hbackslash
  · intro hclosing
    obtain ⟨content, hunits⟩ := hclosing.exists_units hbackslash
    exact ⟨⟨quote, hquote, rfl⟩, content,
      Quoted.read?_eq_some_iff.2 ⟨quote, inside, hquote, rfl, hunits⟩⟩

/-- A text is misquoted if a quote in it closes the literal before its end, or if its last quote is
escaped. -/
theorem isMisquoted_iff :
    IsMisquoted s ↔ ∃ quote inside, Quoted.isQuote quote = true ∧
      s = quote :: (inside ++ [quote]) ∧ ¬Quoted.IsUpToClosing quote inside := by
  constructor
  · rintro ⟨inside, ⟨quote, hquote, rfl⟩, hliteral⟩
    exact ⟨quote, inside, hquote, rfl, mt (isLiteral_iff hquote).2 hliteral⟩
  · rintro ⟨quote, inside, hquote, rfl, hclosing⟩
    exact ⟨inside, ⟨quote, hquote, rfl⟩, mt (isLiteral_iff hquote).1 hclosing⟩

/-! ## The first character of a literal -/

theorem isQuote_of_isEnclosed (h : IsEnclosed s inside) :
    ∃ c ∈ s.head?, Quoted.isQuote c = true := by
  obtain ⟨quote, hquote, rfl⟩ := h
  exact ⟨quote, rfl, hquote⟩

theorem IsEnclosed.text_ne (h : IsEnclosed s inside) :
    text (.ofList inside) ≠ text (.ofList s) := by
  intro heq
  have hlength := congrArg String.length (text.inj heq)
  obtain ⟨quote, -, rfl⟩ := h
  simp only [String.length_ofList, List.length_cons, List.length_append] at hlength
  omega

theorem not_isEnclosed_of_head (h : ∀ c ∈ s.head?, Quoted.isQuote c = false) :
    ¬IsEnclosed s inside := by
  intro henclosed
  obtain ⟨c, hc, hquote⟩ := isQuote_of_isEnclosed henclosed
  rw [h c hc] at hquote
  cases hquote

theorem foldLatin_head_of_truth {b : Bool} {c : Char} (h : s.map foldLatin = truthWord b)
    (hc : c ∈ s.head?) : foldLatin c ∈ (truthWord b).head? := by
  rw [← h, List.head?_map, hc]
  rfl

theorem isQuote_head_of_truth {b : Bool} (h : s.map foldLatin = truthWord b) :
    ∀ c ∈ s.head?, Quoted.isQuote c = false := by
  intro c hc
  have hfold := foldLatin_head_of_truth h hc
  refine Bool.eq_false_iff.2 fun hquote => ?_
  simp only [Quoted.isQuote, Bool.or_eq_true, beq_iff_eq] at hquote
  rcases hquote with rfl | rfl <;> cases b <;> revert hfold <;> decide

theorem head_of_denotes {n : Number} (h : Denotes s n) :
    ∃ c ∈ s.head?, Quoted.isQuote c = false ∧ foldLatin c ≠ 't' ∧ foldLatin c ≠ 'f' := by
  obtain ⟨first, more, rfl, hfirst⟩ := h.exists_cons
  refine ⟨first, rfl, ?_⟩
  rcases hfirst with hdigit | hsign
  · have hname := isNameChar_of_isDigit hdigit
    refine ⟨Bool.eq_false_iff.2 fun hquote => ?_, ?_, ?_⟩
    · rw [isNameChar_of_isQuote hquote] at hname
      cases hname
    · rw [foldLatin, toLower_of_isDigit hdigit]
      rintro rfl
      cases hdigit
    · rw [foldLatin, toLower_of_isDigit hdigit]
      rintro rfl
      cases hdigit
  · simp only [List.mem_cons, List.not_mem_nil, or_false] at hsign
    rcases hsign with rfl | rfl | rfl <;> decide

theorem isQuote_head_of_denotes {n : Number} (h : Denotes s n) :
    ∀ c ∈ s.head?, Quoted.isQuote c = false := by
  obtain ⟨first, hfirst, hquote, -⟩ := head_of_denotes h
  intro c hc
  obtain rfl := Option.some.inj (hc.symm.trans hfirst)
  exact hquote

theorem not_truth_of_denotes {n : Number} (h : Denotes s n) (b : Bool) :
    s.map foldLatin ≠ truthWord b := by
  intro htruth
  obtain ⟨first, hfirst, -, ht, hf⟩ := head_of_denotes h
  have hfold := foldLatin_head_of_truth htruth hfirst
  cases b with
  | true => exact ht (Option.some.inj hfold).symm
  | false => exact hf (Option.some.inj hfold).symm

/-! ## What is read -/

theorem unquoted?_eq_some_iff : unquoted? s = some inside ↔ IsEnclosed s inside := by
  cases s with
  | nil =>
    refine iff_of_false nofun ?_
    rintro ⟨quote, -, heq⟩
    cases heq
  | cons quote rest =>
    rw [unquoted?]
    constructor
    · intro h
      split at h
      · rename_i hends
        cases h
        simp only [Bool.and_eq_true, beq_iff_eq] at hends
        exact ⟨quote, hends.1, by rw [List.dropLast_append_getLast? quote hends.2]⟩
      · cases h
    · rintro ⟨other, hother, heq⟩
      obtain ⟨rfl, rfl⟩ := List.cons.inj heq
      simp [hother]

theorem unquoted?_eq_none (h : ∀ inside, ¬IsEnclosed s inside) : unquoted? s = none :=
  Option.eq_none_iff_forall_ne_some.2 fun inside hsome => h inside (unquoted?_eq_some_iff.1 hsome)

theorem truth?_eq_some_iff {b : Bool} : truth? s = some b ↔ s.map foldLatin = truthWord b := by
  rw [truth?]
  split
  · rename_i htrue
    have hmap : s.map foldLatin = truthWord true := equalFoldingLatin_iff.1 htrue
    cases b <;> simp [hmap, truthWord]
  · rename_i htrue
    split
    · rename_i hfalse
      have hmap : s.map foldLatin = truthWord false := equalFoldingLatin_iff.1 hfalse
      cases b <;> simp [hmap, truthWord]
    · rename_i hfalse
      refine iff_of_false nofun fun hmap => ?_
      cases b with
      | true => exact htrue (equalFoldingLatin_iff.2 hmap)
      | false => exact hfalse (equalFoldingLatin_iff.2 hmap)

theorem ofTrimmed_of_isEnclosed (h : IsEnclosed s inside) :
    ofTrimmed s = .text (.ofList inside) := by
  simp only [ofTrimmed, unquoted?_eq_some_iff.2 h]

/-- A text that does not begin and end with the same quote is given the value that it means. -/
theorem Means.ofTrimmed_eq (h : Means s value) (hplain : ∀ inside, ¬IsEnclosed s inside) :
    ofTrimmed s = value := by
  have hunquoted := unquoted?_eq_none hplain
  cases h with
  | literal hliteral => exact absurd hliteral.1 (hplain _)
  | truth htruth => simp only [ofTrimmed, hunquoted, truth?_eq_some_iff.2 htruth]
  | number hdenotes hfinite =>
    have htruth : truth? s = none := Option.eq_none_iff_forall_ne_some.2 fun b hsome =>
      not_truth_of_denotes hdenotes b (truth?_eq_some_iff.1 hsome)
    simp only [ofTrimmed, hunquoted, htruth, Number.ofText?_eq_some_iff.2 ⟨hdenotes, hfinite⟩]
  | other _ htruth hnumber =>
    have htruth : truth? s = none := Option.eq_none_iff_forall_ne_some.2 fun b hsome =>
      htruth b (truth?_eq_some_iff.1 hsome)
    simp only [ofTrimmed, hunquoted, htruth, Number.ofText?_eq_none_iff.2 hnumber]

theorem Means.of_isEnclosed (h : Means s value) (henclosed : IsEnclosed s inside) :
    IsLiteral s inside ∧ value = .text (.ofList inside) ∨
      IsMisquoted s ∧ value = .text (.ofList s) := by
  cases h with
  | @literal other hliteral =>
    obtain ⟨quote, -, rfl⟩ := henclosed
    obtain ⟨⟨quote', hquote', heq⟩, hread⟩ := hliteral
    obtain ⟨rfl, hinside⟩ := List.cons.inj heq
    obtain rfl := List.append_cancel_right hinside
    exact .inl ⟨⟨⟨quote, hquote', rfl⟩, hread⟩, rfl⟩
  | truth htruth => exact absurd henclosed (not_isEnclosed_of_head (isQuote_head_of_truth htruth))
  | number hdenotes =>
    exact absurd henclosed (not_isEnclosed_of_head (isQuote_head_of_denotes hdenotes))
  | other hliteral => exact .inr ⟨⟨inside, henclosed, hliteral inside⟩, rfl⟩

theorem exists_means (s : List Char) : ∃ value, Means s value := by
  by_cases hliteral : ∃ inside, IsLiteral s inside
  · obtain ⟨inside, hliteral⟩ := hliteral
    exact ⟨_, .literal hliteral⟩
  by_cases htruth : ∃ b, s.map foldLatin = truthWord b
  · obtain ⟨b, htruth⟩ := htruth
    exact ⟨_, .truth htruth⟩
  by_cases hnumber : IsFiniteNumeral s
  · obtain ⟨n, hdenotes, hfinite⟩ := hnumber
    exact ⟨_, .number hdenotes hfinite⟩
  exact ⟨_, .other (not_exists.1 hliteral) (not_exists.1 htruth) hnumber⟩

theorem IsMisquoted.not_isLiteral (h : IsMisquoted s) (inside : List Char) :
    ¬IsLiteral s inside := by
  obtain ⟨other, henclosed, hother⟩ := h
  intro hliteral
  rcases (Means.literal hliteral).of_isEnclosed henclosed with ⟨hsame, -⟩ | ⟨-, hvalue⟩
  · exact hother hsame
  · exact hliteral.1.text_ne hvalue

/-- Every text means one value. -/
theorem existsUnique_means (s : List Char) : ∃! value, Means s value := by
  obtain ⟨value, hmeans⟩ := exists_means s
  refine ⟨value, hmeans, fun other hother => ?_⟩
  by_cases henclosed : ∃ inside, IsEnclosed s inside
  · obtain ⟨inside, henclosed⟩ := henclosed
    rcases hmeans.of_isEnclosed henclosed with ⟨hliteral, rfl⟩ | ⟨hmisquoted, rfl⟩ <;>
      rcases hother.of_isEnclosed henclosed with ⟨hliteral', rfl⟩ | ⟨hmisquoted', rfl⟩
    · rfl
    · exact absurd hliteral (hmisquoted'.not_isLiteral inside)
    · exact absurd hliteral' (hmisquoted.not_isLiteral inside)
    · rfl
  · have hplain := not_exists.1 henclosed
    exact (hother.ofTrimmed_eq hplain).symm.trans (hmeans.ofTrimmed_eq hplain)

theorem means_ofTrimmed_iff : Means s (ofTrimmed s) ↔ ¬IsMisquoted s := by
  constructor
  · rintro hmeans ⟨inside, henclosed, hliteral⟩
    rw [ofTrimmed_of_isEnclosed henclosed] at hmeans
    rcases hmeans.of_isEnclosed henclosed with ⟨hliteral', -⟩ | ⟨-, hvalue⟩
    · exact hliteral hliteral'
    · exact henclosed.text_ne hvalue
  · intro hquoted
    by_cases henclosed : ∃ inside, IsEnclosed s inside
    · obtain ⟨inside, henclosed⟩ := henclosed
      have hliteral : IsLiteral s inside :=
        not_not.1 fun hliteral => hquoted ⟨inside, henclosed, hliteral⟩
      rw [ofTrimmed_of_isEnclosed henclosed]
      exact .literal hliteral
    · obtain ⟨value, hmeans⟩ := exists_means s
      rwa [hmeans.ofTrimmed_eq (not_exists.1 henclosed)]

/-- Every text means one value, and it is given this value unless it begins and ends with the same
quote without being one literal. Of every text that begins and ends with the same quote the value is
what stands between. -/
theorem means_ofLiteral_iff (t : String) :
    (∃! value, Means (trim t.toList) value) ∧
    (Means (trim t.toList) (ofLiteral t) ↔ ¬IsMisquoted (trim t.toList)) ∧
    ∀ inside, IsEnclosed (trim t.toList) inside → ofLiteral t = .text (.ofList inside) :=
  ⟨existsUnique_means _, means_ofTrimmed_iff, fun _ => ofTrimmed_of_isEnclosed⟩

def sum : String := "\"a\" + \"b\""

theorem means_ofLiteral_iff_sum :
    IsEnclosed (trim sum.toList) "a\" + \"b".toList ∧ ofLiteral sum = .text "a\" + \"b" := by
  have henclosed : IsEnclosed (trim sum.toList) "a\" + \"b".toList := ⟨'"', rfl, by decide⟩
  exact ⟨henclosed, (means_ofLiteral_iff sum).2.2 _ henclosed⟩

/-- A sum of two literals means itself and is given another value. -/
theorem not_means_ofLiteral_sum :
    Means (trim sum.toList) (.text sum) ∧ ¬Means (trim sum.toList) (ofLiteral sum) := by
  have henclosed : IsEnclosed (trim sum.toList) "a\" + \"b".toList := ⟨'"', rfl, by decide⟩
  have hmisquoted : IsMisquoted (trim sum.toList) :=
    isMisquoted_iff.2 ⟨'"', _, rfl, by decide, fun hclosing =>
      absurd (hclosing.earlier ['a'] " + \"b".toList rfl) (by decide)⟩
  obtain ⟨value, hmeans⟩ := exists_means (trim sum.toList)
  refine ⟨?_, fun h => means_ofTrimmed_iff.1 h hmisquoted⟩
  rcases hmeans.of_isEnclosed henclosed with ⟨hliteral, -⟩ | ⟨-, rfl⟩
  · exact absurd hliteral (hmisquoted.not_isLiteral _)
  · exact hmeans

end Value

end StoryScript
