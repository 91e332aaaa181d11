import Mathlib.Data.List.Count
import StoryScript.Proofs.Condition.Comparison

/-! # A variable and a quoted text

The condition that a variable equals a quoted text compares the value of the variable with what
stands between the quotes. The first sign of the condition is the one behind the variable, so signs,
colons and words in the text have no part in it; only the separators of tests would have one.
-/

namespace StoryScript

open Text Numeral

/-- A name of a variable that is not the word of negations. -/
structure IsVariable (name : List Char) : Prop where
  nonempty : name ≠ []
  plain : ∀ c ∈ name, isNameChar c = true
  unreserved : name ≠ ['n', 'o', 't']

instance (name : List Char) : Decidable (IsVariable name) :=
  decidable_of_iff (name ≠ [] ∧ name.all isNameChar = true ∧ name ≠ ['n', 'o', 't'])
    ⟨fun h => ⟨h.1, List.all_eq_true.1 h.2.1, h.2.2⟩,
      fun h => ⟨h.1, List.all_eq_true.2 h.2, h.3⟩⟩

def equality (name content : List Char) : List Char :=
  name ++ ' ' :: (['=', '='] ++ ' ' :: '"' :: (content ++ ['"']))

namespace Test

/-- Whether two texts count as equal: as numbers if both are finite ones, and by their lower-case
forms otherwise. -/
inductive Equals (left right : String) : Prop where
  | numbers {a b : Number} (ha : Denotes left.toList a) (hafinite : a.isFinite = true)
      (hb : Denotes right.toList b) (hbfinite : b.isFinite = true) (hunits : a.units? = b.units?) :
      Equals left right
  | texts (hnumbers : ¬(IsFiniteNumeral left.toList ∧ IsFiniteNumeral right.toList))
      (hfold : foldCase left = foldCase right) : Equals left right

/-- Texts are equal exactly if the relation of equality admits their order. -/
theorem any_order?_iff_equals {left right : String} :
    (order? left right).any Relation.equal.admits = true ↔ Equals left right := by
  constructor
  · intro h
    by_cases hnumbers : IsFiniteNumeral left.toList ∧ IsFiniteNumeral right.toList
    · obtain ⟨⟨a, ha, hafinite⟩, b, hb, hbfinite⟩ := hnumbers
      obtain ⟨x, y, hx, hy, horder⟩ := order?_of_denotes ha hafinite hb hbfinite
      rw [horder, Option.any_some, Relation.admits_compare_iff] at h
      exact .numbers ha hafinite hb hbfinite (by rw [hx, hy, show x = y from h])
    · rw [order?_of_not_numerals hnumbers, Option.any_some, Relation.admits_compare_iff] at h
      exact .texts hnumbers h
  · intro h
    cases h with
    | numbers ha hafinite hb hbfinite hunits =>
      obtain ⟨x, y, hx, hy, horder⟩ := order?_of_denotes ha hafinite hb hbfinite
      rw [horder, Option.any_some, Relation.admits_compare_iff]
      exact Option.some.inj (hx.symm.trans (hunits.trans hy))
    | texts hnumbers hfold =>
      rw [order?_of_not_numerals hnumbers, Option.any_some, Relation.admits_compare_iff]
      exact hfold

end Test

section Equality

variable {name content : List Char}

theorem IsVariable.not_mem_space (h : IsVariable name) : ' ' ∉ name := by
  intro hmem
  cases isBlank_of_isNameChar (h.plain ' ' hmem)

theorem IsVariable.not_mem_equals (h : IsVariable name) : '=' ∉ name := by
  intro hmem
  cases (h.plain '=' hmem).symm.trans (isNameChar_of_ascii (by decide))

theorem IsVariable.isQuote_eq_false (h : IsVariable name) :
    ∀ c ∈ name, Quoted.isQuote c = false :=
  fun c hc => isQuote_of_isNameChar (h.plain c hc)

theorem IsVariable.trim_eq (h : IsVariable name) : trim name = name :=
  trim_eq_self_iff.2 ⟨fun c hc => isBlank_of_isNameChar (h.plain c (List.mem_of_mem_head? hc)),
    fun c hc => isBlank_of_isNameChar (h.plain c (List.mem_of_getLast? hc))⟩

theorem trim_equality (h : IsVariable name) (content : List Char) :
    trim (equality name content) = equality name content := by
  have hlast : EndsPlain (equality name content) := by
    have hquote := endsPlain_concat (s := name ++ ' ' :: (['=', '='] ++ ' ' :: '"' :: content))
      (c := '"') rfl
    simpa [equality] using hquote
  refine trim_eq_self_iff.2 ⟨fun c hc => ?_, hlast⟩
  rw [equality, List.head?_append_of_ne_nil _ h.nonempty] at hc
  exact isBlank_of_isNameChar (h.plain c (List.mem_of_mem_head? hc))

/-- A word between spaces stands in the condition only where it stands in the text. -/
theorem spaced_infix_equality (h : IsVariable name) {word : List Char}
    (hsign : '=' ∉ spaced word) (hquote : '"' ∉ spaced word)
    (hwithin : spaced word <:+: equality name content) : spaced word <:+: content := by
  have hsigns : ∀ c ∈ ['=', '='], c ∉ spaced word := by simpa using hsign
  have hname : ¬spaced word <:+: name ++ [' '] := by
    intro hname
    have hcount := hname.sublist.count_le ' '
    have hnone : name.count ' ' = 0 := List.count_eq_zero.2 h.not_mem_space
    simp [spaced, hnone] at hcount
  have hspace : ¬spaced word <:+: [' '] := fun hspace => hname (hspace.trans ⟨name, [], by simp⟩)
  have hsplit : equality name content =
      (name ++ [' ']) ++ (['=', '='] ++ ([' '] ++ '"' :: (content ++ '"' :: []))) := by
    simp [equality]
  rw [hsplit, infix_append_append_iff (spaced_ne_nil word) (List.cons_ne_nil _ _) hsigns,
    infix_append_cons_iff hquote, infix_append_cons_iff hquote] at hwithin
  rcases hwithin with hwithin | hwithin | hwithin | hwithin
  · exact absurd hwithin hname
  · exact absurd hwithin hspace
  · exact hwithin
  · exact absurd (List.eq_nil_of_infix_nil hwithin) (spaced_ne_nil word)

theorem not_negation_prefix_equality (h : IsVariable name) (content : List Char) :
    ¬negationWord <+: equality name content := by
  rintro ⟨rest, heq⟩
  have hsplit : ['n', 'o', 't'] ++ ' ' :: rest =
      name ++ ' ' :: (['=', '='] ++ ' ' :: '"' :: (content ++ ['"'])) := heq
  have hcut := congrArg (cutAt? ' ') hsplit
  rw [cutAt?_append (by decide), cutAt?_append h.not_mem_space] at hcut
  exact h.unreserved (Prod.mk.inj (Option.some.inj hcut)).1.symm

section Operands

variable (hquotes : ∀ c ∈ content, Quoted.isQuote c = false)
include hquotes

theorem dropWhile_isQuote : content.dropWhile Quoted.isQuote = content := by
  cases content with
  | nil => rfl
  | cons c content =>
    rw [List.dropWhile_cons, hquotes c List.mem_cons_self, if_neg Bool.false_ne_true]

theorem dropEndWhile_isQuote : dropEndWhile Quoted.isQuote content = content :=
  dropEndWhile_eq_self_iff.2 fun c hc => hquotes c (List.mem_of_getLast? hc)

theorem readOperand_quoted :
    Test.readOperand (' ' :: '"' :: (content ++ ['"'])) = .ofList content := by
  have htrim : trim (' ' :: '"' :: (content ++ ['"'])) = '"' :: (content ++ ['"']) := by
    rw [trim_cons_of_blank rfl, trim_eq_self_iff]
    refine ⟨?_, endsPlain_concat (s := '"' :: content) rfl⟩
    rintro _ ⟨⟩
    rfl
  rw [Test.readOperand, htrim, List.dropWhile_cons_of_pos rfl, List.dropWhile_append,
    dropWhile_isQuote hquotes]
  split
  · rename_i hnil
    rw [List.isEmpty_iff.1 hnil]
    rfl
  · rw [dropEndWhile_eq_rdropWhile, List.rdropWhile_concat_pos _ _ _ rfl,
      ← dropEndWhile_eq_rdropWhile, dropEndWhile_isQuote hquotes]

end Operands

theorem readOperand_variable (h : IsVariable name) :
    Test.readOperand (name ++ [' ']) = .ofList name := by
  rw [Test.readOperand, trim_concat_of_blank rfl, h.trim_eq,
    dropWhile_isQuote h.isQuote_eq_false, dropEndWhile_isQuote h.isQuote_eq_false]

/-- The condition is one comparison, of the variable with the text between the quotes. -/
theorem readTrimmed_equality (h : IsVariable name)
    (hquotes : ∀ c ∈ content, Quoted.isQuote c = false) :
    Test.readTrimmed (equality name content) =
      .comparison .equal (.ofList name) (.ofList content) := by
  have hequals : '=' ∈ equality name content := by simp [equality]
  have hcut : cut? ['=', '='] (equality name content) =
      some (name ++ [' '], ' ' :: '"' :: (content ++ ['"'])) := by
    have hname : '=' ∉ name ++ [' '] := by simp [h.not_mem_equals]
    have hsign : cut? ['=', '='] ((name ++ [' ']) ++
        (['=', '='] ++ ' ' :: '"' :: (content ++ ['"']))) =
          some (name ++ [' '], ' ' :: '"' :: (content ++ ['"'])) :=
      cut?_append_of_not_mem hname _
    simpa [equality] using hsign
  have hcomparison : Test.readComparison? (equality name content) =
      some (.comparison .equal (.ofList name) (.ofList content)) := by
    simp only [Test.readComparison?, Relation.signs, List.findSome?_cons, hcut, Option.map_some,
      readOperand_variable h, readOperand_quoted hquotes]
  rw [Test.readTrimmed_of_not_prefix (truth?_eq_none hequals (by decide))
    (not_negation_prefix_equality h content), hcomparison, Option.getD_some]

theorem evaluate_equality_iff (h : IsVariable name)
    (hquotes : ∀ c ∈ content, Quoted.isQuote c = false)
    (hconjunction : ¬conjunctionWord <:+: content) (hdisjunction : ¬disjunctionWord <:+: content)
    (lookup : Variables) :
    Condition.evaluate lookup (.ofList (equality name content)) = true ↔
      Test.Equals (Test.resolve lookup (.ofList name)) (Test.resolve lookup (.ofList content)) := by
  have hand : ¬spaced ['a', 'n', 'd'] <:+: equality name content := fun hwithin =>
    hconjunction (spaced_infix_equality h (by decide) (by decide) hwithin)
  have hor : ¬spaced ['o', 'r'] <:+: equality name content := fun hwithin =>
    hdisjunction (spaced_infix_equality h (by decide) (by decide) hwithin)
  have htrim := trim_equality h content
  rw [Condition.evaluate_ofList, Condition.read, htrim,
    Condition.holds_readTrimmed htrim hand hor, readTrimmed_equality h hquotes,
    ← Test.any_order?_iff_equals]
  rfl

end Equality

end StoryScript
