import StoryScript.Proofs.Text.Cut
import StoryScript.Proofs.Text.Trim
import StoryScript.Script.Line

/-! # Blocks and the lines around them

Which lines a triple-quoted block takes is decided from the first line to the last by the
delimiters alone. The blanks around a line have no part in it: a delimiter has none at its ends.
-/

namespace StoryScript.Script

open Text

/-- Whether a text is neither empty nor a comment. -/
def IsStructural (text : List Char) : Prop :=
  text ≠ [] ∧ text.head? ≠ some '#'

instance : DecidablePred IsStructural := fun _ => inferInstanceAs (Decidable (_ ∧ _))

/-- The delimiter of the block that a line opens and does not close, if no block is open
before it. -/
def leftOpen? (line : List Char) : Option (List Char) :=
  if IsStructural (trim line) then
    match cutAtDelimiter? (trim line) with
    | some (delimiter, _, rest) => if contains rest delimiter then none else some delimiter
    | none => none
  else none

/-- The delimiter of the block that is open after a line. The first argument is that of the block
that is open before it. -/
def openAfter : Option (List Char) → List Char → Option (List Char)
  | none, line => leftOpen? line
  | some delimiter, line => if contains line delimiter then none else some delimiter

/-- The delimiter of the block that is open before the line with an index. The first argument is
that of the block that is open before all lines. -/
def openBefore (open? : Option (List Char)) (lines : List (List Char)) (i : Nat) :
    Option (List Char) :=
  (lines.take i).foldl openAfter open?

section OpenBefore

variable {open? : Option (List Char)} {line : List Char} {lines : List (List Char)} {i : Nat}

@[simp] theorem openBefore_cons_succ :
    openBefore open? (line :: lines) (i + 1) = openBefore (openAfter open? line) lines i := rfl

end OpenBefore

section Delimiters

variable {delimiter s t before rest : List Char}

theorem ne_nil_of_mem_delimiters (h : delimiter ∈ delimiters) : delimiter ≠ [] := by
  rintro rfl
  revert h
  decide

theorem infix_trim_iff_of_mem_delimiters (h : delimiter ∈ delimiters) :
    delimiter <:+: trim s ↔ delimiter <:+: s := by
  have hquote : ∀ c ∈ delimiter, isBlank c = false := by
    simp only [delimiters, List.mem_cons, List.not_mem_nil, or_false] at h
    rcases h with rfl | rfl <;> simp <;> rfl
  exact infix_trim_iff (ne_nil_of_mem_delimiters h)
    (fun c hc => hquote c (List.mem_of_mem_head? hc))
    (fun c hc => hquote c (List.mem_of_getLast? hc))

theorem contains_eq_of_trim_eq (h : delimiter ∈ delimiters) (htrim : trim s = trim t) :
    contains s delimiter = contains t delimiter := by
  have hne := ne_nil_of_mem_delimiters h
  rw [Bool.eq_iff_iff, contains_iff hne, contains_iff hne, ← infix_trim_iff_of_mem_delimiters h,
    htrim, infix_trim_iff_of_mem_delimiters h]

/-- A delimiter that stands in a text is cut at, or one that begins before it. -/
theorem exists_cutAtDelimiter? (hdelimiter : delimiter ∈ delimiters)
    (h : s = before ++ (delimiter ++ rest)) :
    ∃ first before' rest', cutAtDelimiter? s = some (first, before', rest') ∧
      before'.length ≤ before.length := by
  have hcut : ∃ before' rest', cut? delimiter s = some (before', rest') ∧
      before'.length ≤ before.length := by
    obtain ⟨before', rest', hcut⟩ := exists_cut?_eq_some (ne_nil_of_mem_delimiters hdelimiter)
      (show delimiter <:+: s from ⟨before, rest, by rw [h, List.append_assoc]⟩)
    exact ⟨before', rest', hcut, length_le_of_cut? hcut h⟩
  obtain ⟨before', rest', hcut, hle⟩ := hcut
  simp only [delimiters, List.mem_cons, List.not_mem_nil, or_false] at hdelimiter
  simp only [cutAtDelimiter?, delimiters, List.foldl_cons, List.foldl_nil]
  rcases hdelimiter with rfl | rfl
  · rw [hcut]
    cases cut? ['\'', '\'', '\''] s with
    | none => exact ⟨_, _, _, rfl, hle⟩
    | some found =>
      simp only
      split
      · exact ⟨_, _, _, rfl, by omega⟩
      · exact ⟨_, _, _, rfl, hle⟩
  · rw [hcut]
    cases cut? ['"', '"', '"'] s with
    | none => exact ⟨_, _, _, rfl, hle⟩
    | some found =>
      simp only
      split
      · exact ⟨_, _, _, rfl, hle⟩
      · exact ⟨_, _, _, rfl, by omega⟩

theorem eq_append_of_cutAtDelimiter? (h : cutAtDelimiter? s = some (delimiter, before, rest)) :
    delimiter ∈ delimiters ∧ s = before ++ (delimiter ++ rest) := by
  have hparts : ∀ other before' rest', cut? other s = some (before', rest') →
      s = before' ++ (other ++ rest') := fun other before' rest' hcut =>
    (cut?_eq_some_iff.1 hcut).2.1
  simp only [cutAtDelimiter?, delimiters, List.foldl_cons, List.foldl_nil] at h
  cases hdouble : cut? ['"', '"', '"'] s with
  | none =>
    cases hsingle : cut? ['\'', '\'', '\''] s with
    | none => simp [hdouble, hsingle] at h
    | some found =>
      simp only [hdouble, hsingle, Option.some.injEq, Prod.mk.injEq] at h
      obtain ⟨rfl, rfl, rfl⟩ := h
      exact ⟨by decide, hparts _ _ _ hsingle⟩
  | some found =>
    cases hsingle : cut? ['\'', '\'', '\''] s with
    | none =>
      simp only [hdouble, hsingle, Option.some.injEq, Prod.mk.injEq] at h
      obtain ⟨rfl, rfl, rfl⟩ := h
      exact ⟨by decide, hparts _ _ _ hdouble⟩
    | some found' =>
      simp only [hdouble, hsingle] at h
      split at h <;> cases h
      · exact ⟨by decide, hparts _ _ _ hsingle⟩
      · exact ⟨by decide, hparts _ _ _ hdouble⟩

theorem cutAtDelimiter?_eq_none_iff :
    cutAtDelimiter? s = none ↔ ∀ delimiter ∈ delimiters, ¬delimiter <:+: s := by
  constructor
  · rintro h delimiter hmem ⟨before, rest, hs⟩
    obtain ⟨_, _, _, hcut, -⟩ := exists_cutAtDelimiter? hmem (hs.symm.trans (List.append_assoc ..))
    rw [h] at hcut
    cases hcut
  · intro h
    cases hcut : cutAtDelimiter? s with
    | none => rfl
    | some found =>
      obtain ⟨hmem, hs⟩ := eq_append_of_cutAtDelimiter? hcut
      exact absurd ⟨_, _, (List.append_assoc ..).trans hs.symm⟩ (h _ hmem)

end Delimiters

section LeftOpen

variable {line line' delimiter : List Char}

/-- A line leaves a block open if its first delimiter does not stand again after that place. -/
theorem leftOpen?_eq_some_iff :
    leftOpen? line = some delimiter ↔
      IsStructural (trim line) ∧ ∃ before rest, cutAtDelimiter? (trim line) =
        some (delimiter, before, rest) ∧ ¬delimiter <:+: rest := by
  rw [leftOpen?]
  constructor
  · intro h
    split at h
    · rename_i hstructural
      split at h
      · rename_i found before rest hcut
        split at h <;> cases h
        rename_i hrest
        have hne := ne_nil_of_mem_delimiters (eq_append_of_cutAtDelimiter? hcut).1
        rw [contains_iff hne] at hrest
        exact ⟨hstructural, before, rest, hcut, hrest⟩
      · cases h
    · cases h
  · rintro ⟨hstructural, before, rest, hcut, hrest⟩
    have hne := ne_nil_of_mem_delimiters (eq_append_of_cutAtDelimiter? hcut).1
    rw [← contains_iff hne] at hrest
    simp only [hstructural, hcut, hrest, ite_true, Bool.false_eq_true, ite_false]

theorem mem_delimiters_of_leftOpen? (h : leftOpen? line = some delimiter) :
    delimiter ∈ delimiters := by
  obtain ⟨-, before, rest, hcut, -⟩ := leftOpen?_eq_some_iff.1 h
  exact (eq_append_of_cutAtDelimiter? hcut).1

variable {open? : Option (List Char)}

theorem mem_delimiters_of_openAfter (hopen : ∀ d ∈ open?, d ∈ delimiters)
    (h : openAfter open? line = some delimiter) : delimiter ∈ delimiters := by
  cases open? with
  | none => exact mem_delimiters_of_leftOpen? h
  | some d =>
    rw [openAfter] at h
    split at h <;> cases h
    exact hopen _ rfl

theorem openAfter_eq_of_trim_eq (hopen : ∀ d ∈ open?, d ∈ delimiters)
    (h : trim line = trim line') : openAfter open? line = openAfter open? line' := by
  cases open? with
  | none => rw [openAfter, openAfter, leftOpen?, leftOpen?, h]
  | some d => rw [openAfter, openAfter, contains_eq_of_trim_eq (hopen d rfl) h]

/-- Which blocks are open is the same for lines that are the same without the blanks around
them. -/
theorem openBefore_eq_of_map_trim_eq {lines lines' : List (List Char)}
    (hopen : ∀ d ∈ open?, d ∈ delimiters) (h : lines.map trim = lines'.map trim) (i : Nat) :
    openBefore open? lines i = openBefore open? lines' i := by
  induction lines generalizing lines' open? i with
  | nil =>
    obtain rfl : lines' = [] := by simpa using h.symm
    rfl
  | cons line lines ih =>
    obtain ⟨line', lines', rfl, hline, hlines⟩ := List.map_eq_cons_iff.1 h.symm
    cases i with
    | zero => rfl
    | succ i =>
      rw [openBefore_cons_succ, openBefore_cons_succ, openAfter_eq_of_trim_eq hopen hline.symm]
      exact ih (fun _ hd => mem_delimiters_of_openAfter hopen hd) hlines.symm i

end LeftOpen

/-! ## How a line is read outside any block -/

/-- How a text is read outside any block: as a function of the number and the indentation of the
line on which it stands alone. -/
inductive Opens (text : List Char) : (Nat → Int64 → Opening) → Prop
  | skipped (hskip : ¬IsStructural text) : Opens text fun _ _ => .skipped
  | statement (hstructural : IsStructural text)
      (hplain : ∀ delimiter ∈ delimiters, ¬delimiter <:+: text) :
      Opens text fun number indent => .complete ⟨number, indent, .statement text⟩
  | block {delimiter before inside after : List Char} (hstructural : IsStructural text)
      (hcut : cutAtDelimiter? text = some (delimiter, before, inside ++ (delimiter ++ after)))
      (hinside : cut? delimiter (inside ++ (delimiter ++ after)) = some (inside, after)) :
      Opens text fun number indent =>
        .complete ⟨number, indent, .block (nonBlank? before) (trim inside)⟩
  | unfinished {delimiter before rest : List Char} (hstructural : IsStructural text)
      (hcut : cutAtDelimiter? text = some (delimiter, before, rest))
      (hrest : ¬delimiter <:+: rest) :
      Opens text fun number indent =>
        .unfinished ⟨number, indent, nonBlank? before, delimiter, text, [trim rest]⟩

def Opening.delimiter? : Opening → Option (List Char)
  | .unfinished block => some block.delimiter
  | _ => none

theorem leftOpen?_of_not_structural {line : List Char} (h : ¬IsStructural (trim line)) :
    leftOpen? line = none := by
  rw [leftOpen?, if_neg h]

theorem leftOpen?_of_plain {line : List Char}
    (h : ∀ delimiter ∈ delimiters, ¬delimiter <:+: trim line) : leftOpen? line = none := by
  rw [leftOpen?, cutAtDelimiter?_eq_none_iff.2 h]
  split <;> rfl

theorem Opens.leftOpen?_eq {line : List Char} {opening : Nat → Int64 → Opening}
    (h : Opens (trim line) opening) (number : Nat) (indent : Int64) :
    leftOpen? line = (opening number indent).delimiter? := by
  cases h with
  | skipped hskip => exact leftOpen?_of_not_structural hskip
  | statement hstructural hplain => exact leftOpen?_of_plain hplain
  | block hstructural hcut hinside =>
    simp only [leftOpen?, hstructural, hcut, contains, hinside, ite_true, Option.isSome_some]
    rfl
  | unfinished hstructural hcut hrest =>
    exact leftOpen?_eq_some_iff.2 ⟨hstructural, _, _, hcut, hrest⟩

/-- A line outside any block is read by what stands on it without the blanks around it. -/
theorem exists_opens (text : List Char) :
    ∃ opening, Opens text opening ∧ ∀ tabWidth number line, trim line = text →
      openLine tabWidth number line = opening number (measureIndent tabWidth line) := by
  by_cases hstructural : IsStructural text
  · have hskip : (text.isEmpty || text.head? == some '#') = false := by
      simpa [IsStructural] using hstructural
    cases hcut : cutAtDelimiter? text with
    | none =>
      refine ⟨_, .statement hstructural (cutAtDelimiter?_eq_none_iff.1 hcut), ?_⟩
      rintro tabWidth number line rfl
      simp only [openLine, hskip, hcut, Bool.false_eq_true, ite_false]
    | some found =>
      obtain ⟨delimiter, before, rest⟩ := found
      cases hrest : cut? delimiter rest with
      | none =>
        have hnone : ¬delimiter <:+: rest := by
          intro hwithin
          have hmem := (eq_append_of_cutAtDelimiter? hcut).1
          obtain ⟨_, _, hsome⟩ := exists_cut?_eq_some (ne_nil_of_mem_delimiters hmem) hwithin
          rw [hrest] at hsome
          cases hsome
        refine ⟨_, .unfinished hstructural hcut hnone, ?_⟩
        rintro tabWidth number line rfl
        simp only [openLine, hskip, hcut, hrest, Bool.false_eq_true, ite_false]
      | some parts =>
        obtain ⟨inside, after⟩ := parts
        obtain ⟨-, rfl, -⟩ := cut?_eq_some_iff.1 hrest
        refine ⟨_, .block hstructural hcut hrest, ?_⟩
        rintro tabWidth number line rfl
        simp only [openLine, hskip, hcut, hrest, Bool.false_eq_true, ite_false]
  · refine ⟨_, .skipped hstructural, ?_⟩
    rintro tabWidth number line rfl
    have hskip : (trim line).isEmpty || (trim line).head? == some '#' := by
      simpa [IsStructural, or_iff_not_imp_left] using hstructural
    simp only [openLine, hskip, ite_true]

end StoryScript.Script
