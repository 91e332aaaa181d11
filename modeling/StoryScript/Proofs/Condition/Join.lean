import StoryScript.Proofs.Condition.Basic

/-! # Conditions made of literals

Literals that are joined by `or`, and what comes of it by `and`, are the tests of the condition
that their join denotes. So the join holds if every clause has a literal that holds. The word `not`
in front of the first literal negates the whole condition, in front of another one that literal
alone.
-/

namespace StoryScript

open Text

/-- A text that can be a literal of a condition. -/
structure IsLiteral (s : List Char) : Prop extends IsUndivided s where
  nonempty : s ≠ []

instance (s : List Char) : Decidable (IsLiteral s) :=
  decidable_of_iff (IsUndivided s ∧ s ≠ []) ⟨fun h => ⟨h.1, h.2⟩, fun h => ⟨h.1, h.2⟩⟩

namespace Condition

/-- The text of a condition: the literals of each clause joined by `or`, and the clauses by
`and`. -/
def join (clauses : List (List (List Char))) : List Char :=
  conjunctionWord.intercalate (clauses.map disjunctionWord.intercalate)

/-- At least one clause, and in each of them at least one literal. -/
structure AreClauses (clauses : List (List (List Char))) : Prop where
  nonempty : clauses ≠ []
  clause : ∀ clause ∈ clauses, clause ≠ []
  literal : ∀ clause ∈ clauses, ∀ literal ∈ clause, IsLiteral literal

instance (clauses : List (List (List Char))) : Decidable (AreClauses clauses) :=
  decidable_of_iff
    (clauses ≠ [] ∧ (∀ clause ∈ clauses, clause ≠ []) ∧
      ∀ clause ∈ clauses, ∀ literal ∈ clause, IsLiteral literal)
    ⟨fun h => ⟨h.1, h.2.1, h.2.2⟩, fun h => ⟨h.1, h.2, h.3⟩⟩

/-! ## Literals in a join -/

section Ends

variable {separator : List Char} {parts : List (List Char)}

theorem intercalate_ne_nil (hne : parts ≠ []) (h : ∀ part ∈ parts, part ≠ []) :
    separator.intercalate parts ≠ [] := by
  obtain ⟨part, parts, rfl⟩ := List.exists_cons_of_ne_nil hne
  have hpart := h part List.mem_cons_self
  rcases eq_or_ne parts [] with rfl | hlater
  · rwa [List.intercalate_singleton]
  · rw [intercalate_cons _ hlater]
    exact List.append_ne_nil_of_left_ne_nil hpart _

theorem head?_intercalate {part : List Char} (hpart : part ≠ []) (parts : List (List Char)) :
    (separator.intercalate (part :: parts)).head? = part.head? := by
  rcases eq_or_ne parts [] with rfl | hlater
  · rw [List.intercalate_singleton]
  · rw [intercalate_cons _ hlater, List.head?_append_of_ne_nil _ hpart]

theorem endsPlain_intercalate (hne : parts ≠ []) (h : ∀ part ∈ parts, part ≠ [])
    (hplain : ∀ part ∈ parts, EndsPlain part) : EndsPlain (separator.intercalate parts) := by
  induction parts with
  | nil => exact absurd rfl hne
  | cons part parts ih =>
    obtain ⟨-, hparts⟩ := List.forall_mem_cons.1 h
    obtain ⟨hpart, hlast⟩ := List.forall_mem_cons.1 hplain
    rcases eq_or_ne parts [] with rfl | hlater
    · rwa [List.intercalate_singleton]
    · have hjoin := @intercalate_ne_nil separator _ hlater hparts
      rw [intercalate_cons _ hlater]
      exact endsPlain_append (List.append_ne_nil_of_right_ne_nil _ hjoin)
        (endsPlain_append hjoin (ih hlater hparts hlast))

theorem trim_intercalate (hne : parts ≠ []) (h : ∀ part ∈ parts, part ≠ [])
    (htrim : ∀ part ∈ parts, trim part = part) :
    trim (separator.intercalate parts) = separator.intercalate parts := by
  refine trim_eq_self_iff.2 ⟨?_, ?_⟩
  · obtain ⟨part, parts, rfl⟩ := List.exists_cons_of_ne_nil hne
    rw [head?_intercalate (h part List.mem_cons_self)]
    exact (trim_eq_self_iff.1 (htrim part List.mem_cons_self)).1
  · exact endsPlain_intercalate hne h fun part hpart => (trim_eq_self_iff.1 (htrim part hpart)).2

end Ends

section Join

variable {clauses : List (List (List Char))} {lookup : Variables}

theorem not_conjunction_infix_clause (h : AreClauses clauses) :
    ∀ part ∈ clauses.map disjunctionWord.intercalate, ¬conjunctionWord <:+: spaced part := by
  intro part hpart
  obtain ⟨clause, hclause, rfl⟩ := List.mem_map.1 hpart
  have hliteral : ∀ literal ∈ clause, ¬conjunctionWord <:+: spaced literal :=
    fun literal hliteral => (h.literal clause hclause literal hliteral).conjunction
  exact @not_spaced_infix_intercalate ['a', 'n', 'd'] ['o', 'r'] clause (by decide) (by decide)
    (h.clause clause hclause) hliteral

theorem pieces_join (h : AreClauses clauses) :
    (pieces conjunctionWord (join clauses)).map (pieces disjunctionWord) = clauses := by
  have hclauses : pieces conjunctionWord (join clauses) =
      clauses.map disjunctionWord.intercalate :=
    @pieces_intercalate ['a', 'n', 'd'] _ (by decide) (by simpa using h.nonempty)
      (not_conjunction_infix_clause h)
  have hliterals : ∀ clause ∈ clauses,
      pieces disjunctionWord (disjunctionWord.intercalate clause) = clause := by
    intro clause hclause
    exact @pieces_intercalate ['o', 'r'] clause (by decide) (h.clause clause hclause)
      fun literal hliteral => (h.literal clause hclause literal hliteral).disjunction
  rw [hclauses, List.map_map]
  exact (List.map_congr_left hliterals).trans (List.map_id' clauses)

theorem trim_join (h : AreClauses clauses) : trim (join clauses) = join clauses := by
  have hne : ∀ clause ∈ clauses, disjunctionWord.intercalate clause ≠ [] := by
    intro clause hclause
    exact intercalate_ne_nil (h.clause clause hclause)
      fun literal hliteral => (h.literal clause hclause literal hliteral).nonempty
  have htrim : ∀ clause ∈ clauses,
      trim (disjunctionWord.intercalate clause) = disjunctionWord.intercalate clause := by
    intro clause hclause
    exact trim_intercalate (h.clause clause hclause)
      (fun literal hliteral => (h.literal clause hclause literal hliteral).nonempty)
      fun literal hliteral => (h.literal clause hclause literal hliteral).trimmed
  exact trim_intercalate (by simpa using h.nonempty) (List.forall_mem_map.2 hne)
    (List.forall_mem_map.2 htrim)

theorem read_join (h : AreClauses clauses) (hplain : ¬negationWord <+: join clauses) :
    read (join clauses) = ⟨false, clauses.map (·.map Test.read)⟩ := by
  have hpieces := congrArg (List.map (List.map Test.read)) (pieces_join h)
  rw [List.map_map] at hpieces
  rw [read, trim_join h, readTrimmed_of_not_prefix hplain, ← hpieces]
  rfl

theorem everyClause_iff (h : AreClauses clauses) :
    everyClause lookup ⟨false, clauses.map (·.map Test.read)⟩ = true ↔
      ∀ clause ∈ clauses, ∃ literal ∈ clause, evaluate lookup (.ofList literal) = true := by
  have hliteral : ∀ clause ∈ clauses, ∀ literal ∈ clause,
      (Test.read literal).holds lookup = evaluate lookup (.ofList literal) := by
    intro clause hclause literal hliteral
    exact (evaluate_of_isUndivided (h.literal clause hclause literal hliteral).toIsUndivided
      lookup).symm
  simp only [everyClause, List.all_map, List.all_eq_true, Function.comp_apply, List.any_map,
    List.any_eq_true]
  refine forall₂_congr fun clause hclause => exists_congr fun literal => ?_
  exact and_congr_right fun hmem => by rw [hliteral clause hclause literal hmem]

theorem evaluate_join_iff (h : AreClauses clauses) (hplain : ¬negationWord <+: join clauses)
    (lookup : Variables) :
    evaluate lookup (.ofList (join clauses)) = true ↔
      ∀ clause ∈ clauses, ∃ literal ∈ clause, evaluate lookup (.ofList literal) = true := by
  have hne : clauses.map (·.map Test.read) ≠ [] := by simpa using h.nonempty
  rw [evaluate_ofList, read_join h hplain, holds_of_clauses hne rfl, everyClause_iff h]

theorem intercalate_append_cons (separator front part : List Char) (parts : List (List Char)) :
    separator.intercalate ((front ++ part) :: parts) =
      front ++ separator.intercalate (part :: parts) := by
  rcases eq_or_ne parts [] with rfl | hlater
  · rw [List.intercalate_singleton, List.intercalate_singleton]
  · rw [intercalate_cons _ hlater, intercalate_cons _ hlater, List.append_assoc]

theorem join_append_cons (front literal : List Char) (clause : List (List Char))
    (later : List (List (List Char))) :
    join (((front ++ literal) :: clause) :: later) =
      front ++ join ((literal :: clause) :: later) := by
  rw [join, List.map_cons, intercalate_append_cons, intercalate_append_cons]
  rfl

end Join

/-- A condition whose text does not begin with `not` holds exactly if every clause has a literal
that holds. Otherwise it is the negation of what follows that word, so `not` in front of the first
literal negates the whole condition; in front of a later one it negates that literal. That some
literal of any clause has to hold as well changes no result. -/
theorem evaluate_join {clauses : List (List (List Char))} (h : AreClauses clauses)
    (lookup : Variables) :
    (¬negationWord <+: join clauses →
      (evaluate lookup (.ofList (join clauses)) = true ↔
        ∀ clause ∈ clauses, ∃ literal ∈ clause, evaluate lookup (.ofList literal) = true)) ∧
    (∀ rest, join clauses = negationWord ++ rest →
      evaluate lookup (.ofList (join clauses)) = !evaluate lookup (.ofList rest)) ∧
    (∀ literal clause later, clauses = ((negationWord ++ literal) :: clause) :: later →
      evaluate lookup (.ofList (join clauses)) =
        !evaluate lookup (.ofList (join ((literal :: clause) :: later)))) ∧
    (∀ clause ∈ clauses, ∀ literal, negationWord ++ literal ∈ clause →
      evaluate lookup (.ofList (negationWord ++ literal)) =
        !evaluate lookup (.ofList literal)) ∧
    ∀ s, ((read s).everyClause lookup && (read s).someTest lookup) =
      (read s).everyClause lookup := by
  have hnegation : ∀ rest, join clauses = negationWord ++ rest →
      evaluate lookup (.ofList (join clauses)) = !evaluate lookup (.ofList rest) := by
    intro rest hrest
    have htrim := trim_join h
    rw [hrest] at htrim ⊢
    exact evaluate_negation htrim lookup
  refine ⟨fun hplain => evaluate_join_iff h hplain lookup, hnegation, ?_, ?_, fun s => ?_⟩
  · rintro literal clause later rfl
    exact hnegation _ (join_append_cons _ _ _ _)
  · intro clause hclause literal hliteral
    exact evaluate_negation (h.literal clause hclause _ hliteral).trimmed lookup
  · exact everyClause_and_someTest (clauses_readTrimmed_ne_nil _) lookup

def outing : List (List (List Char)) :=
  [["met".toList], ["rich".toList, "not tired".toList]]

example : join outing = "met and rich or not tired".toList := by decide

theorem evaluate_join_outing :
    AreClauses outing ∧ ¬negationWord <+: join outing ∧
      ∀ lookup, evaluate lookup (.ofList (join outing)) = true ↔
        ∀ clause ∈ outing, ∃ literal ∈ clause, evaluate lookup (.ofList literal) = true := by
  have hclauses : AreClauses outing := by decide +kernel
  have hplain : ¬negationWord <+: join outing := by decide
  exact ⟨hclauses, hplain, fun lookup => (evaluate_join hclauses lookup).1 hplain⟩

end Condition

end StoryScript
