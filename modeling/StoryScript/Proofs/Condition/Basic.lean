import Mathlib.Data.List.Infix
import StoryScript.Condition.Reader
import StoryScript.Proofs.Text.Pieces
import StoryScript.Proofs.Text.Trim

/-! # Conditions and their tests

A condition has a clause and every clause has a test, so a condition whose clauses all hold has a
test that holds. A text without separators is one test, and the word `not` in front of a text
negates it.
-/

namespace StoryScript

open Text

/-- A text without blanks around it, in which no separator stands, not even together with spaces
around the text. -/
structure IsUndivided (s : List Char) : Prop where
  trimmed : trim s = s
  conjunction : ¬conjunctionWord <:+: spaced s
  disjunction : ¬disjunctionWord <:+: spaced s

instance (s : List Char) : Decidable (IsUndivided s) :=
  decidable_of_iff (trim s = s ∧ ¬conjunctionWord <:+: spaced s ∧ ¬disjunctionWord <:+: spaced s)
    ⟨fun h => ⟨h.1, h.2.1, h.2.2⟩, fun h => ⟨h.1, h.2, h.3⟩⟩

theorem IsUndivided.not_within {s : List Char} (h : IsUndivided s) :
    ¬conjunctionWord <:+: s ∧ ¬disjunctionWord <:+: s :=
  have hwithin : s <:+: spaced s := ⟨[' '], [' '], rfl⟩
  ⟨fun hfound => h.conjunction (hfound.trans hwithin),
    fun hfound => h.disjunction (hfound.trans hwithin)⟩

theorem after?_negation (rest : List Char) :
    after? negationWord (negationWord ++ rest) = some rest :=
  after?_eq_some_iff.2 rfl

namespace Condition

variable {lookup : Variables} {condition : Condition} {s rest : List Char}

@[simp] theorem holds_negate (lookup : Variables) (condition : Condition) :
    condition.negate.holds lookup = !condition.holds lookup := by
  change ((!condition.negated) != (condition.everyClause lookup && condition.someTest lookup)) = _
  rw [holds, Bool.not_bne]

theorem someTest_of_everyClause (hne : condition.clauses ≠ [])
    (h : condition.everyClause lookup = true) : condition.someTest lookup = true := by
  obtain ⟨clause, hclause⟩ := List.exists_mem_of_ne_nil _ hne
  obtain ⟨test, htest, hholds⟩ := List.any_eq_true.1 (List.all_eq_true.1 h clause hclause)
  exact List.any_eq_true.2 ⟨test, List.mem_flatten.2 ⟨clause, hclause, htest⟩, hholds⟩

theorem everyClause_and_someTest (hne : condition.clauses ≠ []) (lookup : Variables) :
    (condition.everyClause lookup && condition.someTest lookup) =
      condition.everyClause lookup := by
  cases h : condition.everyClause lookup with
  | false => rfl
  | true => rw [someTest_of_everyClause hne h, Bool.and_self]

theorem clauses_readTrimmed_ne_nil (s : List Char) : (readTrimmed s).clauses ≠ [] := by
  fun_induction readTrimmed s with
  | case1 s rest hnegated ih => exact ih
  | case2 s hplain =>
    intro hnil
    exact pieces_ne_nil _ _ (List.map_eq_nil_iff.1 hnil)

theorem holds_of_clauses (hne : condition.clauses ≠ []) (hplain : condition.negated = false) :
    condition.holds lookup = condition.everyClause lookup := by
  rw [holds, everyClause_and_someTest hne, hplain, Bool.false_bne]

theorem evaluate_ofList (lookup : Variables) (s : List Char) :
    evaluate lookup (.ofList s) = (read s).holds lookup := by
  rw [evaluate, String.toList_ofList]

theorem readTrimmed_negation (rest : List Char) :
    readTrimmed (negationWord ++ rest) = (readTrimmed (trimStart rest)).negate := by
  rw [readTrimmed]
  split
  · rename_i found hfound
    rw [after?_negation] at hfound
    cases hfound
    rfl
  · rename_i hnone
    rw [after?_negation] at hnone
    cases hnone

theorem readTrimmed_of_not_prefix (h : ¬negationWord <+: s) :
    readTrimmed s = ⟨false, (pieces conjunctionWord s).map fun clause =>
      (pieces disjunctionWord clause).map Test.read⟩ := by
  rw [readTrimmed]
  split
  · rename_i rest hrest
    exact absurd ⟨rest, (after?_eq_some_iff.1 hrest).symm⟩ h
  · rfl

theorem trimStart_of_trim_negation (h : trim (negationWord ++ rest) = negationWord ++ rest) :
    trimStart rest = trim rest := by
  have hplain := (trim_eq_self_iff.1 h).2
  symm
  refine dropEndWhile_eq_self_iff.2 fun c hc => hplain c ?_
  obtain ⟨hne, rfl⟩ := List.mem_getLast?_eq_getLast hc
  have hsuffix : trimStart rest <:+ negationWord ++ rest :=
    (List.dropWhile_suffix _).trans (List.suffix_append _ _)
  rw [hsuffix.getLast hne]
  exact List.getLast_mem_getLast? _

theorem evaluate_negation (h : trim (negationWord ++ rest) = negationWord ++ rest)
    (lookup : Variables) :
    evaluate lookup (.ofList (negationWord ++ rest)) = !evaluate lookup (.ofList rest) := by
  rw [evaluate_ofList, evaluate_ofList, read, h, readTrimmed_negation, holds_negate,
    trimStart_of_trim_negation h]
  rfl

end Condition

/-! ## A single test -/

namespace Test

variable {s : List Char}

theorem readTrimmed_negation (rest : List Char) :
    readTrimmed (negationWord ++ rest) = .negation (readTrimmed (trimStart rest)) := by
  have htruth : Value.truth? (negationWord ++ rest) = none := rfl
  rw [readTrimmed, htruth]
  simp only
  split
  · rename_i found hfound
    rw [after?_negation] at hfound
    cases hfound
    rfl
  · rename_i hnone
    rw [after?_negation] at hnone
    cases hnone

theorem readTrimmed_of_not_prefix (htruth : Value.truth? s = none) (h : ¬negationWord <+: s) :
    readTrimmed s = (readComparison? s).getD (truthOf (.ofList s)) := by
  rw [readTrimmed, htruth]
  simp only
  split
  · rename_i rest hrest
    exact absurd ⟨rest, (after?_eq_some_iff.1 hrest).symm⟩ h
  · rfl

theorem readOperand_congr {t : List Char} (h : trim s = trim t) :
    readOperand s = readOperand t := by
  rw [readOperand, h, readOperand]

end Test

namespace Condition

variable {s : List Char}

theorem holds_readTrimmed (htrim : trim s = s) (hconjunction : ¬conjunctionWord <:+: s)
    (hdisjunction : ¬disjunctionWord <:+: s) (lookup : Variables) :
    (readTrimmed s).holds lookup = (Test.readTrimmed s).holds lookup := by
  fun_induction readTrimmed s with
  | case1 s rest hnegated ih =>
    obtain rfl := after?_eq_some_iff.1 hnegated
    have hwithin : trimStart rest <:+: negationWord ++ rest :=
      ((List.dropWhile_suffix _).trans (List.suffix_append _ _)).isInfix
    have hrest : trim (trimStart rest) = trimStart rest := by
      rw [trimStart_of_trim_negation htrim, trim_trim]
    rw [holds_negate, Test.readTrimmed_negation, Test.holds,
      ih hrest (fun h => hconjunction (h.trans hwithin)) (fun h => hdisjunction (h.trans hwithin))]
  | case2 s hplain =>
    rw [pieces_eq_singleton hconjunction, List.map_singleton, pieces_eq_singleton hdisjunction,
      List.map_singleton, Test.read, htrim, holds_of_clauses (List.cons_ne_nil _ _) rfl]
    simp [everyClause]

theorem evaluate_of_isUndivided (h : IsUndivided s) (lookup : Variables) :
    evaluate lookup (.ofList s) = (Test.read s).holds lookup := by
  rw [evaluate_ofList, read, Test.read, h.trimmed,
    holds_readTrimmed h.trimmed h.not_within.1 h.not_within.2]

end Condition

end StoryScript
