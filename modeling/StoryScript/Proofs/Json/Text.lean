import Mathlib.Tactic.Common
import Mathlib.Tactic.IntervalCases
import StoryScript.Json.Reader
import StoryScript.Json.Writer

/-! # Texts in documents

A text is written one character at a time, some as escapes. Each of them is read back as one
unit, and the units denote the text again.
-/

namespace StoryScript.Json

variable {fuel n : Nat} {c : Char} {s rest : List Char}

def letterEscapes : List Char := ['\n', '\r', '\t', '\x08', '\x0c']

def unitOf (c : Char) : TextUnit :=
  if c.toNat < 32 ∧ c ∉ letterEscapes then .code c.toNat else .char c

theorem readUnit?_hexDigits (h : n < 32) (s : List Char) :
    readUnit? (hexDigits n ++ s) = some (n, s) := by
  interval_cases n <;> rfl

theorem readUnitsWithin_escape {unit : TextUnit} (h : readEscape? s = some (unit, rest)) :
    readUnitsWithin (fuel + 1) ('\\' :: s) =
      (readUnitsWithin fuel rest).map fun (units, rest) => (unit :: units, rest) := by
  rw [readUnitsWithin, h]

theorem readUnitsWithin_plain (hquote : c ≠ '"') (hslash : c ≠ '\\') (h : ¬ c.toNat < 32) :
    readUnitsWithin (fuel + 1) (c :: s) =
      (readUnitsWithin fuel s).map fun (units, rest) => (.char c :: units, rest) := by
  rw [readUnitsWithin, if_neg h]
  · rintro ⟨⟩
    exact hquote rfl
  · rintro ⟨⟩
    exact hslash rfl

theorem readUnitsWithin_writeChar (fuel : Nat) (c : Char) (s : List Char) :
    readUnitsWithin (fuel + 1) (writeChar c ++ s) =
      (readUnitsWithin fuel s).map fun (units, rest) => (unitOf c :: units, rest) := by
  unfold writeChar
  split
  · exact readUnitsWithin_escape rfl
  · exact readUnitsWithin_escape rfl
  · exact readUnitsWithin_escape rfl
  · exact readUnitsWithin_escape rfl
  · exact readUnitsWithin_escape rfl
  · exact readUnitsWithin_escape rfl
  · exact readUnitsWithin_escape rfl
  · rename_i hquote hslash hline hreturn htab hback hfeed
    split
    · rename_i hcontrol
      have hunit : unitOf c = .code c.toNat := by
        refine if_pos ⟨hcontrol, ?_⟩
        simp only [letterEscapes, List.mem_cons, List.not_mem_nil, or_false, not_or]
        exact ⟨hline, hreturn, htab, hback, hfeed⟩
      rw [hunit]
      refine readUnitsWithin_escape ?_
      change (readUnit? (hexDigits c.toNat ++ s)).map _ = _
      rw [readUnit?_hexDigits hcontrol, Option.map_some]
    · rename_i hplain
      have hunit : unitOf c = .char c := if_neg fun h => hplain h.1
      rw [hunit]
      exact readUnitsWithin_plain hquote hslash hplain

theorem readUnitsWithin_flatMap (chars : List Char) (h : chars.length < fuel) :
    readUnitsWithin fuel (chars.flatMap writeChar ++ '"' :: rest) =
      some (chars.map unitOf, rest) := by
  obtain ⟨fuel, rfl⟩ := Nat.exists_eq_add_one_of_ne_zero (Nat.ne_of_gt (Nat.zero_lt_of_lt h))
  induction chars generalizing fuel with
  | nil => rfl
  | cons c chars ih =>
    rw [List.length_cons, Nat.add_lt_add_iff_right] at h
    obtain ⟨fuel, rfl⟩ := Nat.exists_eq_add_one_of_ne_zero (Nat.ne_of_gt (Nat.zero_lt_of_lt h))
    rw [List.flatMap_cons, List.append_assoc, readUnitsWithin_writeChar, ih fuel h]
    rfl

theorem joinUnits?_control {units : List TextUnit} (h : n < 32) :
    joinUnits? (.code n :: units) = (joinUnits? units).map (.ofNat n :: ·) := by
  have hhigh : isHighSurrogate n = false := by
    simp only [isHighSurrogate, Bool.and_eq_false_iff, decide_eq_false_iff_not]
    omega
  have hlow : isLowSurrogate n = false := by
    simp only [isLowSurrogate, Bool.and_eq_false_iff, decide_eq_false_iff_not]
    omega
  rw [joinUnits?.eq_def]
  simp only [hhigh, hlow, Bool.false_eq_true, ite_false]

theorem joinUnits?_map_unitOf (chars : List Char) :
    joinUnits? (chars.map unitOf) = some chars := by
  induction chars with
  | nil => rfl
  | cons c chars ih =>
    rw [List.map_cons, unitOf]
    split
    · rename_i hcode
      rw [joinUnits?_control hcode.1, ih, Option.map_some, Char.ofNat_toNat]
    · rw [joinUnits?, ih]
      rfl

theorem length_le_length_flatMap (chars : List Char) :
    chars.length ≤ (chars.flatMap writeChar).length := by
  induction chars with
  | nil => exact Nat.le_refl 0
  | cons c chars ih =>
    have hpos : 0 < (writeChar c).length := by
      unfold writeChar
      split
      case h_8 => split <;> exact Nat.succ_pos _
      all_goals exact Nat.succ_pos _
    rw [List.flatMap_cons, List.length_append, List.length_cons]
    omega

theorem readText?_writeText {text : String} (h : (writeText text rest).length ≤ fuel) :
    readText? fuel (text.toList.flatMap writeChar ++ '"' :: rest) = some (some text, rest) := by
  have hlength := length_le_length_flatMap text.toList
  rw [writeText, List.length_cons, List.length_append, List.length_cons] at h
  rw [readText?, readUnitsWithin_flatMap text.toList (by omega)]
  simp only [Option.map_some, joinUnits?_map_unitOf, String.ofList_toList]

end StoryScript.Json
