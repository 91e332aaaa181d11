import StoryScript.Proofs.Nesting.Draft
import StoryScript.Proofs.Nesting.Width
import StoryScript.Script.Reader

/-! # Widths that do not fit into a word

The width of the blanks before a line is measured as a word with a sign, and so is the difference
of two widths. Indentation is measured as it is written exactly if no structural line has blanks
before it that are 2 ^ 63 wide or wider. Tabs may be so wide: then a line inside a body is measured
as less indented than the header, and the body ends before it.
-/

namespace StoryScript.Script

open Text

def Line.blanks (text : List Char) (line : Line) : List Char :=
  ((lines text)[line.number - 1]?.getD []).takeWhile isBlank

/-- Whether the structural lines of a text are indented as they are written. -/
structure MeasuresAsWritten (tabWidth : UInt64) (text : List Char) : Prop where
  /-- The indentation of a line is the sum of the widths of its blanks. -/
  measured : ∀ line ∈ (structural tabWidth text).1, line.indent.toInt = line.width tabWidth text
  relative : ∀ line ∈ (structural tabWidth text).1, ∀ base ∈ (structural tabWidth text).1,
    (line.indent - base.indent).toInt = (line.width tabWidth text - base.width tabWidth text : Int)
  /-- More blanks after the same blanks do not make the indentation less. -/
  ordered : ∀ line ∈ (structural tabWidth text).1, ∀ inner ∈ (structural tabWidth text).1,
    line.blanks text <+: inner.blanks text → line.indent ≤ inner.indent ∧
      ∀ base ∈ (structural tabWidth text).1,
        line.indent - base.indent ≤ inner.indent - base.indent

variable {tabWidth : UInt64} {text : List Char} {line base inner : Line}

theorem width_le_of_prefix (h : line.blanks text <+: inner.blanks text) :
    line.width tabWidth text ≤ inner.width tabWidth text := by
  obtain ⟨more, hmore⟩ := h
  rw [Line.blanks, Line.blanks] at hmore
  rw [Line.width, Line.width, leadingWidth, leadingWidth, ← hmore, List.map_append,
    List.sum_append]
  exact Nat.le_add_right _ _

theorem toInt_indent_eq_bmod (h : line ∈ (structural tabWidth text).1) :
    line.indent.toInt = (line.width tabWidth text : Int).bmod (2 ^ 64) := by
  rw [indent_of_mem_structural h]
  exact toInt_measureIndent_eq_bmod _ _

theorem toInt_sub_indent_eq_bmod (hline : line ∈ (structural tabWidth text).1)
    (hbase : base ∈ (structural tabWidth text).1) :
    (line.indent - base.indent).toInt =
      (line.width tabWidth text - base.width tabWidth text : Int).bmod (2 ^ 64) := by
  rw [Int64.toInt_sub, toInt_indent_eq_bmod hline, toInt_indent_eq_bmod hbase, Int.bmod_sub_bmod,
    Int.sub_bmod_bmod]

theorem MeasuresAsWritten.width_lt (h : MeasuresAsWritten tabWidth text)
    (hline : line ∈ (structural tabWidth text).1) : line.width tabWidth text < 2 ^ 63 := by
  have hlt := line.indent.toInt_lt
  rw [h.measured line hline] at hlt
  omega

theorem measuresAsWritten_of_fits
    (hfits : ∀ line ∈ (structural tabWidth text).1, line.width tabWidth text < 2 ^ 63) :
    MeasuresAsWritten tabWidth text := by
  have hmeasured := fun line hline => toInt_indent_of_mem_structural hline (hfits line hline)
  have hrelative := fun line hline base hbase =>
    toInt_sub_of_width (hmeasured line hline) (hmeasured base hbase) (hfits line hline)
      (hfits base hbase)
  refine ⟨hmeasured, hrelative, fun line hline inner hinner hblanks => ?_⟩
  have hwidth : line.width tabWidth text ≤ inner.width tabWidth text := width_le_of_prefix hblanks
  constructor
  · rw [Int64.le_iff_toInt_le, hmeasured line hline, hmeasured inner hinner]
    omega
  · intro base hbase
    rw [Int64.le_iff_toInt_le, hrelative line hline base hbase,
      hrelative inner hinner base hbase]
    omega

/-- Widths and their differences are measured modulo the size of a word, and they are measured as
they are written exactly if all of them fit into a word with a sign. -/
theorem measuresAsWritten_iff (tabWidth : UInt64) (text : List Char) :
    (∀ line ∈ (structural tabWidth text).1,
      line.indent.toInt = (line.width tabWidth text : Int).bmod (2 ^ 64) ∧
        ∀ base ∈ (structural tabWidth text).1, (line.indent - base.indent).toInt =
          (line.width tabWidth text - base.width tabWidth text : Int).bmod (2 ^ 64)) ∧
      (MeasuresAsWritten tabWidth text ↔
        ∀ line ∈ (structural tabWidth text).1, line.width tabWidth text < 2 ^ 63) := by
  refine ⟨fun line hline => ⟨toInt_indent_eq_bmod hline, fun base hbase => ?_⟩, ?_⟩
  · exact toInt_sub_indent_eq_bmod hline hbase
  · exact ⟨fun h line hline => h.width_lt hline, measuresAsWritten_of_fits⟩

section Wide

theorem outline_of_not_lt {name : String} {command : Command}
    (h : ¬line.indent - line.indent < inner.indent - line.indent) :
    outline [(line, .statement (.header (.label name))), (inner, .statement (.simple command))] =
      [.node line.number (.label name) [], .leaf inner.number command] := by
  have hplaced := outline_eq_nest
    [(line, .statement (.header (.label name))), (inner, .statement (.simple command))]
  simp only [List.map_cons, List.map_nil, place, origin] at hplaced
  rw [hplaced, nest_of_header _ rfl, bodyOf, pastBody, if_neg h, if_neg h, nest_nil,
    nest_of_leaf _ rfl, nest_nil]
  rfl

def wideTab : UInt64 := 4611686018427387904

def tabbed : String := "label a:\n\t\t\"one\""

/-- Two tabs of width 2 ^ 62 put a line of speech outside the body of the label before it: the
line is measured as less indented, although it begins with blanks and the label does not. -/
theorem not_measuresAsWritten_wideTab :
    ¬MeasuresAsWritten wideTab tabbed.toList ∧
      read wideTab tabbed = .ok [.label "a" [], .dialogue none "one"] := by
  have hlines : structural wideTab tabbed.toList =
      ([⟨1, 0, .statement "label a:".toList⟩,
        ⟨2, Int64.minValue, .statement "\"one\"".toList⟩], none) := by
    decide +kernel
  constructor
  · intro h
    obtain ⟨hle, -⟩ := h.ordered _ (by rw [hlines]; exact List.mem_cons_self) _
      (by rw [hlines]; exact List.mem_cons_of_mem _ List.mem_cons_self) (by decide +kernel)
    exact absurd hle (by decide +kernel)
  · have hitems : readItems [⟨1, 0, .statement "label a:".toList⟩,
        ⟨2, Int64.minValue, .statement "\"one\"".toList⟩] =
          .ok [(⟨1, 0, .statement "label a:".toList⟩, .statement (.header (.label "a"))),
            (⟨2, Int64.minValue, .statement "\"one\"".toList⟩,
              .statement (.simple (.dialogue none "one")))] := rfl
    rw [read, readOutline, hlines]
    simp only [hitems]
    rw [outline_of_not_lt (by decide +kernel)]
    rfl

end Wide

end StoryScript.Script
