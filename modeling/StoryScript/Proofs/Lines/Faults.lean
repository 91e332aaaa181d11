import StoryScript.Proofs.Number.Numeral
import StoryScript.Proofs.Statement
import StoryScript.Proofs.Writer.Statement

/-! # Faulty statements

A statement is at fault if it defines something that begins like a call and is none, or if a
number that it needs is not the numeral of a finite number. Nothing around the statement matters.
-/

namespace StoryScript.Script

open Numeral Statement Text

/-- The clauses after the file of a line that plays music: the file is a quoted literal or one
word. -/
def afterFile (s : List Char) : List Char :=
  ((Quoted.read? s).getD (s.span (!isBlank ·))).2

/-- The faults of statements. -/
inductive Faulty : List Char → StatementFault → Prop
  /-- The value of a definition begins like a call and is none. -/
  | definition {name value : List Char} {message : String} (hname : '=' ∉ name)
      (hlooks : Call.looksLikeCall (.ofList (trim value)) = true)
      (hread : Call.read (.ofList (trim value)) = .error message) :
      Faulty (led "define " (name ++ '=' :: value)) (.malformedDefinition message)
  /-- A pause is followed by something that is no number. -/
  | pause {rest : List Char} (hne : trim rest ≠ []) (hnumber : ¬IsFiniteNumeral (trim rest)) :
      Faulty (led "pause " rest) .invalidNumber
  /-- Music is faded in over something that is no number. -/
  | playMusic {rest : List Char} {words : List (List Char)}
      (hclause : (readClauses ["fadein"] (afterFile (trim rest))).clause? "fadein".toList =
        some words)
      (hnumber : ¬IsFiniteNumeral (trim (unwords words))) :
      Faulty (led "play music " rest) .invalidNumber
  /-- Music is faded out over something that is no number. -/
  | stopMusic {rest : List Char} {words : List (List Char)}
      (hclause : (readClauses ["fadeout"] rest).clause? "fadeout".toList = some words)
      (hnumber : ¬IsFiniteNumeral (trim (unwords words))) :
      Faulty (led "stop music " rest) .invalidNumber

section Numbers

variable {s : List Char} {fault : StatementFault} {clauses : Clauses} {keyword : String}

theorem readNumber_eq_error_iff :
    readNumber s = .error fault ↔ ¬IsFiniteNumeral (trim s) ∧ fault = .invalidNumber := by
  rw [← Number.ofText?_eq_none_iff, readNumber]
  cases Number.ofText? (trim s) with
  | none =>
    constructor
    · rintro ⟨⟩
      exact ⟨rfl, rfl⟩
    · rintro ⟨-, rfl⟩
      rfl
  | some n =>
    constructor
    · rintro ⟨⟩
    · rintro ⟨⟨⟩, -⟩

theorem map_eq_error_iff {ε α β : Type} {found : Except ε α} {error : ε} {f : α → β} :
    found.map f = .error error ↔ found = .error error := by
  cases found with
  | ok a => exact ⟨nofun, nofun⟩
  | error other =>
    constructor
    · rintro ⟨⟩
      rfl
    · rintro ⟨⟩
      rfl

theorem readClauseNumber_eq_error_iff :
    readClauseNumber clauses keyword = .error fault ↔
      ∃ words, clauses.clause? keyword.toList = some words ∧
        ¬IsFiniteNumeral (trim (unwords words)) ∧ fault = .invalidNumber := by
  rw [readClauseNumber]
  cases clauses.clause? keyword.toList with
  | none =>
    constructor
    · rintro ⟨⟩
    · rintro ⟨_, ⟨⟩, -⟩
  | some words =>
    simp only [map_eq_error_iff, readNumber_eq_error_iff, Option.some.injEq, exists_eq_left']

theorem readClauses_cons_space (keywords : List String) (s : List Char) :
    readClauses keywords (' ' :: s) = readClauses keywords s := rfl

end Numbers

section Faulty

variable {line : List Char} {fault : StatementFault}

theorem faulty_of_read_eq_error (h : Statement.read line = .error fault) : Faulty line fault := by
  have hyields := yields_read line
  generalize Statement.read line = reading at h hyields
  cases hyields with
  | @malformed rest name value message hcut hlooks hread =>
    cases h
    obtain ⟨-, rfl, hfirst⟩ := cut?_eq_some_iff.1 hcut
    refine .definition (fun hname => ?_) hlooks hread
    obtain ⟨front, back, rfl⟩ := List.append_of_mem hname
    have hle := hfirst front (back ++ '=' :: value) (by simp)
    simp only [List.length_append, List.length_cons] at hle
    omega
  | pauseFor hne =>
    obtain ⟨hnumber, rfl⟩ := readNumber_eq_error_iff.1 (map_eq_error_iff.1 h)
    exact .pause hne hnumber
  | @playMusic rest file after hfile =>
    obtain ⟨words, hclause, hnumber, rfl⟩ := readClauseNumber_eq_error_iff.1 (map_eq_error_iff.1 h)
    have hafter : afterFile (trim rest) = after := congrArg Prod.snd hfile
    rw [← hafter] at hclause
    exact .playMusic hclause hnumber
  | stopMusic hrest =>
    obtain ⟨words, hclause, hnumber, rfl⟩ := readClauseNumber_eq_error_iff.1 (map_eq_error_iff.1 h)
    rcases hrest with rfl | ⟨later, rfl⟩
    · cases hclause
    · rw [readClauses_cons_space] at hclause
      exact .stopMusic hclause hnumber
  | _ => cases h

theorem read_eq_error_of_faulty (h : Faulty line fault) : Statement.read line = .error fault := by
  cases h with
  | definition hname hlooks hread =>
    rw [read_define, cutAt?_append hname]
    simp only [hlooks, hread, ite_true]
  | @pause rest hne hnumber =>
    have htrim : trim (' ' :: rest) = trim rest := trim_cons_of_blank rfl
    have hnumber' := readNumber_eq_error_iff.2 ⟨hnumber, rfl⟩
    rw [readNumber] at hnumber'
    rw [read_pause, readNumber, htrim, if_neg (by simpa using hne), hnumber']
    rfl
  | @playMusic rest words hclause hnumber =>
    have hnumber' := readClauseNumber_eq_error_iff.2 ⟨words, hclause, hnumber, rfl⟩
    rw [read_playMusic]
    exact map_eq_error_iff.2 hnumber'
  | @stopMusic rest words hclause hnumber =>
    have hnumber' := readClauseNumber_eq_error_iff.2 ⟨words, hclause, hnumber, rfl⟩
    exact (read_stopMusic rest).trans (map_eq_error_iff.2 hnumber')

theorem read_eq_error_iff_faulty : Statement.read line = .error fault ↔ Faulty line fault :=
  ⟨faulty_of_read_eq_error, read_eq_error_of_faulty⟩

end Faulty

end StoryScript.Script
