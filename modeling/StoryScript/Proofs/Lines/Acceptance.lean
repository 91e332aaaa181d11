import Mathlib.Data.Nat.Find
import StoryScript.Proofs.Lines.Faults
import StoryScript.Proofs.Lines.Statements
import StoryScript.Proofs.Nesting.Script

/-! # Which scripts are accepted

A script is rejected for the first faulty statement that stands outside all blocks, or for a block
without an end if no statement is at fault. Indentation has no part in it.
-/

namespace StoryScript.Script

open Text

inductive Rejection (lines : List (List Char)) : ScriptError → Prop
  /-- The first faulty statement is reported. -/
  | statement {i : Nat} {text : List Char} {fault : StatementFault}
      (hat : StatementAt none lines i text) (hfaulty : Faulty text fault)
      (hfirst : ∀ j < i, ∀ earlier, StatementAt none lines j earlier →
        ∀ other, ¬Faulty earlier other) :
      Rejection lines (fault.toError (i + 1) text)
  /-- Without a faulty statement, a block that is never closed is reported. -/
  | block {i : Nat} {text : List Char} (hat : UnclosedAt none lines i text)
      (hsound : ∀ j statement, StatementAt none lines j statement →
        ∀ fault, ¬Faulty statement fault) :
      Rejection lines (.unterminatedBlock (i + 1) (.ofList text))

section Items

variable {lines : List Line} {line : Line} {error : ScriptError}

theorem item_eq_error_iff :
    line.item = .error error ↔
      ∃ text fault, line.content = .statement text ∧ Faulty text fault ∧
        error = fault.toError line.number text := by
  rw [Line.item]
  cases line.content with
  | block speaker text =>
    constructor
    · rintro ⟨⟩
    · rintro ⟨_, _, ⟨⟩, -⟩
  | statement text =>
    simp only [Content.statement.injEq, exists_and_left, exists_eq_left']
    cases hread : Statement.read text with
    | ok statement =>
      constructor
      · rintro ⟨⟩
      · rintro ⟨fault, hfaulty, -⟩
        rw [← read_eq_error_iff_faulty, hread] at hfaulty
        cases hfaulty
    | error fault =>
      constructor
      · rintro ⟨⟩
        exact ⟨fault, read_eq_error_iff_faulty.1 hread, rfl⟩
      · rintro ⟨other, hfaulty, rfl⟩
        rw [← read_eq_error_iff_faulty, hread] at hfaulty
        cases hfaulty
        rfl

/-- The first line at fault is reported: with increasing numbers, no line with a smaller number
is at fault. -/
theorem readItems_eq_error_iff (hsorted : (lines.map (·.number)).Pairwise (· < ·)) :
    readItems lines = .error error ↔
      ∃ line ∈ lines, line.item = .error error ∧
        ∀ earlier ∈ lines, earlier.number < line.number → ∀ other, earlier.item ≠ .error other := by
  induction lines with
  | nil =>
    constructor
    · rintro ⟨⟩
    · rintro ⟨_, ⟨⟩, -⟩
  | cons line lines ih =>
    rw [List.map_cons, List.pairwise_cons] at hsorted
    obtain ⟨hline, hlines⟩ := hsorted
    have hless : ∀ later ∈ lines, line.number < later.number := fun later hmem =>
      hline _ (List.mem_map_of_mem hmem)
    rw [readItems]
    cases hitem : line.item with
    | error found =>
      constructor
      · rintro ⟨⟩
        refine ⟨line, List.mem_cons_self, hitem, fun earlier hearlier hlt => ?_⟩
        rcases List.mem_cons.1 hearlier with rfl | hlater
        · exact absurd hlt (Nat.lt_irrefl _)
        · exact absurd (hless earlier hlater) (Nat.lt_asymm hlt)
      · rintro ⟨other, hother, herror, hfirst⟩
        rcases List.mem_cons.1 hother with rfl | hlater
        · rw [hitem] at herror
          cases herror
          rfl
        · exact absurd hitem (hfirst line List.mem_cons_self (hless other hlater) found)
    | ok item =>
      simp only [map_eq_error_iff]
      rw [ih hlines]
      constructor
      · rintro ⟨other, hother, herror, hfirst⟩
        refine ⟨other, List.mem_cons_of_mem _ hother, herror, fun earlier hearlier hlt => ?_⟩
        rcases List.mem_cons.1 hearlier with rfl | hlater
        · rintro found hfound
          rw [hitem] at hfound
          cases hfound
        · exact hfirst earlier hlater hlt
      · rintro ⟨other, hother, herror, hfirst⟩
        rcases List.mem_cons.1 hother with rfl | hlater
        · rw [hitem] at herror
          cases herror
        · exact ⟨other, hlater, herror, fun earlier hearlier hlt =>
            hfirst earlier (List.mem_cons_of_mem _ hearlier) hlt⟩

end Items

section Rejection

variable {tabWidth : UInt64} {text : String} {error : ScriptError} {lines : List (List Char)}

theorem read_eq_error_iff :
    read tabWidth text = .error error ↔
      readItems (structural tabWidth text.toList).1 = .error error ∨
      (∀ other, readItems (structural tabWidth text.toList).1 ≠ .error other) ∧
        ∃ block, (structural tabWidth text.toList).2 = some block ∧
          error = .unterminatedBlock block.number (.ofList block.opening) := by
  rw [read, map_eq_error_iff, readOutline]
  simp only
  cases readItems (structural tabWidth text.toList).1 with
  | error found =>
    constructor
    · rintro ⟨⟩
      exact .inl rfl
    · rintro (⟨⟨⟩⟩ | ⟨hnone, -⟩)
      · rfl
      · exact absurd rfl (hnone found)
  | ok items =>
    cases (structural tabWidth text.toList).2 with
    | none =>
      constructor
      · rintro ⟨⟩
      · rintro (⟨⟨⟩⟩ | ⟨-, _, ⟨⟩, -⟩)
    | some block =>
      constructor
      · rintro ⟨⟩
        exact .inr ⟨by simp, block, rfl, rfl⟩
      · rintro (⟨⟨⟩⟩ | ⟨-, _, ⟨⟩, rfl⟩)
        rfl

theorem exists_faulty_item_iff {n : Nat} :
    (∃ line ∈ (structural tabWidth text.toList).1, line.number = n ∧ line.item = .error error) ↔
      ∃ i statement fault, n = i + 1 ∧ StatementAt none (Text.lines text.toList) i statement ∧
        Faulty statement fault ∧ error = fault.toError n statement := by
  constructor
  · rintro ⟨line, hline, rfl, hitem⟩
    obtain ⟨statement, fault, hcontent, hfaulty, rfl⟩ := item_eq_error_iff.1 hitem
    obtain ⟨i, hnumber, hat⟩ := statement_mem_structural_iff.1 ⟨line, hline, rfl, hcontent⟩
    exact ⟨i, statement, fault, hnumber, hat, hfaulty, rfl⟩
  · rintro ⟨i, statement, fault, rfl, hat, hfaulty, rfl⟩
    obtain ⟨line, hline, hnumber, hcontent⟩ := statement_mem_structural_iff.2 ⟨i, rfl, hat⟩
    refine ⟨line, hline, hnumber, item_eq_error_iff.2 ⟨statement, fault, hcontent, hfaulty, ?_⟩⟩
    rw [hnumber]

theorem readItems_structural_eq_error_iff :
    readItems (structural tabWidth text.toList).1 = .error error ↔
      ∃ i statement fault, StatementAt none (Text.lines text.toList) i statement ∧
        Faulty statement fault ∧ error = fault.toError (i + 1) statement ∧
        ∀ j < i, ∀ earlier, StatementAt none (Text.lines text.toList) j earlier →
          ∀ other, ¬Faulty earlier other := by
  rw [readItems_eq_error_iff (increasing_structural tabWidth text.toList)]
  constructor
  · rintro ⟨line, hline, hitem, hfirst⟩
    obtain ⟨i, statement, fault, hnumber, hat, hfaulty, rfl⟩ :=
      exists_faulty_item_iff.1 ⟨line, hline, rfl, hitem⟩
    refine ⟨i, statement, fault, hat, hfaulty, by rw [hnumber], fun j hj earlier hearlier other
      hother => ?_⟩
    obtain ⟨found, hfound, hplace, hfault⟩ :=
      exists_faulty_item_iff.2 ⟨j, earlier, other, rfl, hearlier, hother, rfl⟩
    exact hfirst found hfound (by omega) _ hfault
  · rintro ⟨i, statement, fault, hat, hfaulty, rfl, hfirst⟩
    obtain ⟨line, hline, hnumber, hitem⟩ :=
      exists_faulty_item_iff.2 ⟨i, statement, fault, rfl, hat, hfaulty, rfl⟩
    refine ⟨line, hline, hitem, fun earlier hearlier hlt other hother => ?_⟩
    obtain ⟨j, found, otherFault, hplace, hfound, hfault, -⟩ :=
      exists_faulty_item_iff.1 ⟨earlier, hearlier, rfl, hother⟩
    exact hfirst j (by omega) found hfound otherFault hfault

theorem readItems_structural_sound_iff :
    (∀ other, readItems (structural tabWidth text.toList).1 ≠ .error other) ↔
      ∀ j statement, StatementAt none (Text.lines text.toList) j statement →
        ∀ fault, ¬Faulty statement fault := by
  constructor
  · intro h j
    -- The first faulty statement would be reported.
    induction j using Nat.strong_induction_on with
    | _ j ih =>
      intro statement hat fault hfaulty
      exact h _ (readItems_structural_eq_error_iff.2 ⟨j, statement, fault, hat, hfaulty, rfl, ih⟩)
  · rintro h other hother
    obtain ⟨i, statement, fault, hat, hfaulty, -⟩ := readItems_structural_eq_error_iff.1 hother
    exact h i statement hat fault hfaulty

theorem read_eq_error_iff_rejection :
    read tabWidth text = .error error ↔ Rejection (Text.lines text.toList) error := by
  rw [read_eq_error_iff, readItems_structural_sound_iff, readItems_structural_eq_error_iff]
  constructor
  · rintro (⟨i, statement, fault, hat, hfaulty, rfl, hfirst⟩ | ⟨hsound, block, hblock, rfl⟩)
    · exact .statement hat hfaulty hfirst
    · obtain ⟨i, hnumber, hat⟩ := unclosed_structural_iff.1 ⟨block, hblock, rfl, rfl⟩
      rw [hnumber]
      exact .block hat hsound
  · intro h
    cases h with
    | statement hat hfaulty hfirst => exact .inl ⟨_, _, _, hat, hfaulty, rfl, hfirst⟩
    | block hat hsound =>
      obtain ⟨block, hblock, hnumber, hopening⟩ := unclosed_structural_iff.2 ⟨_, rfl, hat⟩
      exact .inr ⟨hsound, block, hblock, by rw [hnumber, hopening]⟩

theorem Rejection.of_map_trim_eq {lines' : List (List Char)}
    (h : lines.map trim = lines'.map trim) (hrejection : Rejection lines error) :
    Rejection lines' error := by
  cases hrejection with
  | statement hat hfaulty hfirst =>
    exact .statement (hat.of_map_trim_eq h) hfaulty fun j hj earlier hearlier =>
      hfirst j hj earlier (hearlier.of_map_trim_eq h.symm)
  | block hat hsound =>
    exact .block (hat.of_map_trim_eq h) fun j statement hstatement =>
      hsound j statement (hstatement.of_map_trim_eq h.symm)

theorem exists_rejection_iff :
    (∃ error, Rejection lines error) ↔
      (∃ i statement fault, StatementAt none lines i statement ∧ Faulty statement fault) ∨
        ∃ i opening, UnclosedAt none lines i opening := by
  constructor
  · rintro ⟨error, hrejection⟩
    cases hrejection with
    | statement hat hfaulty => exact .inl ⟨_, _, _, hat, hfaulty⟩
    | block hat => exact .inr ⟨_, _, hat⟩
  · intro h
    by_cases hfaulty : ∃ i statement fault, StatementAt none lines i statement ∧
        Faulty statement fault
    · classical
      obtain ⟨statement, fault, hat, hfault⟩ := Nat.find_spec hfaulty
      refine ⟨_, .statement hat hfault fun j hj earlier hearlier other hother => ?_⟩
      exact Nat.find_min hfaulty hj ⟨earlier, other, hearlier, hother⟩
    · obtain ⟨i, opening, hat⟩ := h.resolve_left hfaulty
      exact ⟨_, .block hat fun j statement hstatement fault hfault =>
        hfaulty ⟨j, statement, fault, hstatement, hfault⟩⟩

end Rejection

/-- Whether a script is accepted is decided line by line. It is rejected exactly if a faulty
statement stands outside all blocks or a block is never closed; the first faulty statement is
reported, and a block only if there is none. Two scripts whose lines are the same without the
blanks around them are rejected with the same error or both accepted, whatever a tab counts. -/
theorem rejected_iff (tabWidth : UInt64) (text : String) :
    (∀ error, read tabWidth text = .error error ↔ Rejection (lines text.toList) error) ∧
    ((∃ error, read tabWidth text = .error error) ↔
      (∃ i statement fault, StatementAt none (lines text.toList) i statement ∧
        Faulty statement fault) ∨
      ∃ i opening, UnclosedAt none (lines text.toList) i opening) ∧
    ∀ (otherWidth : UInt64) (other : String),
      (lines text.toList).map trim = (lines other.toList).map trim →
      (∃ error, read tabWidth text = .error error ∧ read otherWidth other = .error error) ∨
      (∃ script, read tabWidth text = .ok script) ∧
        ∃ script, read otherWidth other = .ok script := by
  refine ⟨fun error => read_eq_error_iff_rejection, ?_, fun otherWidth other hlines => ?_⟩
  · simp only [read_eq_error_iff_rejection]
    exact exists_rejection_iff
  · cases hread : read tabWidth text with
    | error error =>
      have hrejection := (read_eq_error_iff_rejection.1 hread).of_map_trim_eq hlines
      exact .inl ⟨error, rfl, read_eq_error_iff_rejection.2 hrejection⟩
    | ok script =>
      refine .inr ⟨⟨script, rfl⟩, ?_⟩
      cases hother : read otherWidth other with
      | ok found => exact ⟨found, rfl⟩
      | error error =>
        have hrejection := (read_eq_error_iff_rejection.1 hother).of_map_trim_eq hlines.symm
        rw [read_eq_error_iff_rejection.2 hrejection] at hread
        cases hread

/-- A faulty pause after a block is reported however the lines are indented. -/
theorem rejected_iff_of_faulty_pause :
    (lines "\"\"\"\npause a\n\"\"\"\npause b".toList).map trim =
      (lines "\t\"\"\"\npause a\n  \"\"\"\n    pause b".toList).map trim ∧
    ((∃ error, read 4 "\"\"\"\npause a\n\"\"\"\npause b" = .error error ∧
      read 8 "\t\"\"\"\npause a\n  \"\"\"\n    pause b" = .error error) ∨
    (∃ script, read 4 "\"\"\"\npause a\n\"\"\"\npause b" = .ok script) ∧
      ∃ script, read 8 "\t\"\"\"\npause a\n  \"\"\"\n    pause b" = .ok script) :=
  ⟨by decide +kernel, (rejected_iff 4 "\"\"\"\npause a\n\"\"\"\npause b").2.2 8
    "\t\"\"\"\npause a\n  \"\"\"\n    pause b" (by decide +kernel)⟩

end StoryScript.Script
