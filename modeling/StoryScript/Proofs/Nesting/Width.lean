import Mathlib.Algebra.GroupWithZero.Nat
import Mathlib.Tactic.Common
import StoryScript.Script.Outline

/-! # Structural lines and the lines of a script

A structural line carries the number of the line on which it begins and the width of the blanks at
the start of that line. The numbers increase, and a width is measured as it stands as long as it
fits into a word with a sign.
-/

namespace StoryScript.Script

open Text

/-- The width of the blanks at the start of a line, without a bound. -/
def leadingWidth (tabWidth : UInt64) (line : List Char) : Nat :=
  ((line.takeWhile isBlank).map fun c => if c = '\t' then tabWidth.toNat else 1).sum

def Line.width (tabWidth : UInt64) (text : List Char) (line : Line) : Nat :=
  leadingWidth tabWidth ((lines text)[line.number - 1]?.getD [])

section Measure

variable {tabWidth : UInt64}

theorem toNat_foldl_width (tabWidth : UInt64) (blanks : List Char) (start : UInt64) :
    (blanks.foldl (fun width c => width + if c = '\t' then tabWidth else 1) start).toNat =
      (start.toNat + (blanks.map fun c => if c = '\t' then tabWidth.toNat else 1).sum) %
        2 ^ 64 := by
  induction blanks generalizing start with
  | nil => simp [Nat.mod_eq_of_lt start.toNat_lt]
  | cons c blanks ih =>
    rw [List.foldl_cons, ih, UInt64.toNat_add, Nat.mod_add_mod, List.map_cons, List.sum_cons,
      Nat.add_assoc]
    split <;> rfl

theorem toInt_measureIndent_eq_bmod (tabWidth : UInt64) (line : List Char) :
    (measureIndent tabWidth line).toInt = (leadingWidth tabWidth line : Int).bmod (2 ^ 64) := by
  have hwidth := toNat_foldl_width tabWidth (line.takeWhile isBlank) 0
  rw [UInt64.toNat_zero, Nat.zero_add, ← leadingWidth] at hwidth
  have hbits := BitVec.toInt_eq_toNat_bmod ((line.takeWhile isBlank).foldl
    (fun width c => width + if c = '\t' then tabWidth else 1) (0 : UInt64)).toBitVec
  rw [UInt64.toNat_toBitVec, hwidth, Int.natCast_emod, Int.emod_bmod] at hbits
  exact hbits

theorem toInt_measureIndent {line : List Char} (h : leadingWidth tabWidth line < 2 ^ 63) :
    (measureIndent tabWidth line).toInt = leadingWidth tabWidth line := by
  rw [toInt_measureIndent_eq_bmod, Int.bmod_eq_of_le (by omega) (by omega)]

theorem toInt_sub_of_width {a b : Int64} {m n : Nat} (ha : a.toInt = m) (hb : b.toInt = n)
    (hm : m < 2 ^ 63) (hn : n < 2 ^ 63) : (a - b).toInt = m - n := by
  rw [Int64.toInt_sub, ha, hb, Int.bmod_eq_of_le (by omega) (by omega)]

end Measure

section Numbers

/-- Where a structural line comes from: a block that is open, or one of the lines to come. -/
inductive ComesFrom (tabWidth : UInt64) (block? : Option OpenBlock) (number : Nat)
    (lines : List (List Char)) (found : Line) : Prop
  | block {block} : block? = some block → found.number = block.number →
      found.indent = block.indent → ComesFrom tabWidth block? number lines found
  | line {offset text} : lines[offset]? = some text → found.number = number + offset →
      found.indent = measureIndent tabWidth text → ComesFrom tabWidth block? number lines found

variable {tabWidth : UInt64} {number : Nat} {lines : List (List Char)} {text : List Char}

theorem openLine_complete {found : Line} (h : openLine tabWidth number text = .complete found) :
    found.number = number ∧ found.indent = measureIndent tabWidth text := by
  simp only [openLine] at h
  split at h
  · cases h
  · split at h
    · cases h
      exact ⟨rfl, rfl⟩
    · split at h <;> cases h
      exact ⟨rfl, rfl⟩

theorem openLine_unfinished {block : OpenBlock}
    (h : openLine tabWidth number text = .unfinished block) :
    block.number = number ∧ block.indent = measureIndent tabWidth text := by
  simp only [openLine] at h
  split at h
  · cases h
  · split at h
    · cases h
    · split at h <;> cases h
      exact ⟨rfl, rfl⟩

theorem ComesFrom.later {found : Line}
    (h : ComesFrom tabWidth none (number + 1) lines found) (block? : Option OpenBlock) :
    ComesFrom tabWidth block? number (text :: lines) found := by
  cases h with
  | block hblock => cases hblock
  | @line offset _ hline hnumber hindent =>
    have hlater : (text :: lines)[offset + 1]? = some _ := hline
    refine .line hlater ?_ hindent
    omega

theorem ComesFrom.extend {found : Line} {block : OpenBlock}
    (h : ComesFrom tabWidth (some block) (number + 1) lines found) {block? : Option OpenBlock}
    (hblock : found.number = block.number → found.indent = block.indent →
      ComesFrom tabWidth block? number (text :: lines) found) :
    ComesFrom tabWidth block? number (text :: lines) found := by
  cases h with
  | block heq hnumber hindent =>
    cases heq
    exact hblock hnumber hindent
  | line hline hnumber hindent => exact ComesFrom.later (.line hline hnumber hindent) block?

theorem comesFrom_of_mem_structuralFrom {block? : Option OpenBlock} {found : Line}
    (h : found ∈ (structuralFrom tabWidth block? number lines).1) :
    ComesFrom tabWidth block? number lines found := by
  fun_induction structuralFrom tabWidth block? number lines with
  | case1 => cases h
  | case2 block number text lines last rest hcut later unclosed heq ih =>
    rw [heq] at ih
    rcases List.mem_cons.1 h with rfl | h
    · exact .block rfl rfl rfl
    · exact (ih h).later _
  | case3 block number text lines hcut ih => exact (ih h).extend fun hn hi => .block rfl hn hi
  | case4 number text lines hopen ih => exact (ih h).later _
  | case5 number text lines complete hopen later unclosed heq ih =>
    rw [heq] at ih
    rcases List.mem_cons.1 h with rfl | h
    · obtain ⟨hn, hi⟩ := openLine_complete hopen
      have hfirst : (text :: lines)[0]? = some text := rfl
      exact .line hfirst hn hi
    · exact (ih h).later _
  | case6 number text lines block hopen ih =>
    refine (ih h).extend fun hn hi => ?_
    obtain ⟨hnumber, hindent⟩ := openLine_unfinished hopen
    have hfirst : (text :: lines)[0]? = some text := rfl
    exact .line hfirst (hn.trans hnumber) (hi.trans hindent)

theorem le_number_of_mem_structuralFrom {found : Line}
    (h : found ∈ (structuralFrom tabWidth none number lines).1) : number ≤ found.number := by
  cases comesFrom_of_mem_structuralFrom h with
  | block hblock => cases hblock
  | line _ hnumber => omega

theorem increasing_cons {first : Line} (hfirst : first.number < number)
    (h : ((structuralFrom tabWidth none number lines).1.map (·.number)).Pairwise (· < ·)) :
    ((first :: (structuralFrom tabWidth none number lines).1).map (·.number)).Pairwise (· < ·) := by
  rw [List.map_cons, List.pairwise_cons]
  refine ⟨?_, h⟩
  intro found hfound
  obtain ⟨line, hline, rfl⟩ := List.mem_map.1 hfound
  exact Nat.lt_of_lt_of_le hfirst (le_number_of_mem_structuralFrom hline)

theorem increasing_structuralFrom {block? : Option OpenBlock}
    (hblock : ∀ block, block? = some block → block.number < number) :
    ((structuralFrom tabWidth block? number lines).1.map (·.number)).Pairwise (· < ·) := by
  fun_induction structuralFrom tabWidth block? number lines with
  | case1 => exact .nil
  | case2 block number text lines last rest hcut later unclosed heq ih =>
    have hlater : later = (structuralFrom tabWidth none (number + 1) lines).1 := by rw [heq]
    rw [hlater]
    exact increasing_cons (Nat.lt_succ_of_lt (hblock block rfl)) (ih nofun)
  | case3 block number text lines hcut ih =>
    refine ih ?_
    rintro _ ⟨⟩
    exact Nat.lt_succ_of_lt (hblock block rfl)
  | case4 number text lines hopen ih => exact ih nofun
  | case5 number text lines complete hopen later unclosed heq ih =>
    have hlater : later = (structuralFrom tabWidth none (number + 1) lines).1 := by rw [heq]
    rw [hlater]
    refine increasing_cons ?_ (ih nofun)
    rw [(openLine_complete hopen).1]
    exact Nat.lt_succ_self _
  | case6 number text lines block hopen ih =>
    refine ih ?_
    rintro _ ⟨⟩
    rw [(openLine_unfinished hopen).1]
    exact Nat.lt_succ_self _

end Numbers

theorem increasing_structural (tabWidth : UInt64) (text : List Char) :
    ((structural tabWidth text).1.map (·.number)).Pairwise (· < ·) :=
  increasing_structuralFrom nofun

theorem indent_of_mem_structural {tabWidth : UInt64} {text : List Char} {line : Line}
    (h : line ∈ (structural tabWidth text).1) :
    line.indent = measureIndent tabWidth ((lines text)[line.number - 1]?.getD []) := by
  cases comesFrom_of_mem_structuralFrom h with
  | block hblock => cases hblock
  | line hline hnumber hindent =>
    rw [hindent, hnumber, Nat.add_sub_cancel_left, hline]
    rfl

theorem toInt_indent_of_mem_structural {tabWidth : UInt64} {text : List Char} {line : Line}
    (h : line ∈ (structural tabWidth text).1) (hwidth : line.width tabWidth text < 2 ^ 63) :
    line.indent.toInt = line.width tabWidth text := by
  rw [indent_of_mem_structural h]
  exact toInt_measureIndent hwidth

end StoryScript.Script
