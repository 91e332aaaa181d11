import Mathlib.Data.List.Forall2
import StoryScript.Proofs.Lines.Blocks
import StoryScript.Proofs.Nesting.Script

/-! # Scripts that are indented anew

The widths of the blanks before the lines of a script matter through their order alone. Two scripts
with the same lines, whose structural lines are in the same order by width, are read to the same
commands or are rejected with the same error.
-/

namespace StoryScript.Script

open Text

/-- A structural line begins on the line with an index: no block is open before it, and it is
neither blank nor a comment. The first argument is the delimiter of the block that is open before
all lines. -/
def StructuralAt (open? : Option (List Char)) (lines : List (List Char)) (i : Nat) : Prop :=
  openBefore open? lines i = none ∧ IsStructural (trim (lines[i]?.getD []))

instance {open? : Option (List Char)} {lines : List (List Char)} :
    DecidablePred (StructuralAt open? lines) :=
  fun _ => inferInstanceAs (Decidable (_ ∧ _))

def widthAt (tabWidth : UInt64) (lines : List (List Char)) (i : Nat) : Nat :=
  leadingWidth tabWidth (lines[i]?.getD [])

/-- The same lines with other blanks before them, in the same order by width. -/
structure Reindented (tabWidth : UInt64) (lines : List (List Char)) (otherWidth : UInt64)
    (others : List (List Char)) : Prop where
  trimmed : lines.map trim = others.map trim
  /-- The lines that go on with a block are the same. -/
  inside : ∀ i < lines.length, openBefore none lines i ≠ none → lines[i]? = others[i]?
  fits : ∀ i < lines.length, StructuralAt none lines i →
    widthAt tabWidth lines i < 2 ^ 63 ∧ widthAt otherWidth others i < 2 ^ 63
  order : ∀ i < lines.length, ∀ j < lines.length, StructuralAt none lines i →
    StructuralAt none lines j →
      (widthAt tabWidth lines i ≤ widthAt tabWidth lines j ↔
        widthAt otherWidth others i ≤ widthAt otherWidth others j)

/-! ## Structural lines -/

section Structural

/-- Two structural lines that differ in their indentation only. -/
structure SameLine (P : Int64 → Int64 → Prop) (line other : Line) : Prop where
  number : line.number = other.number
  content : line.content = other.content
  indent : P line.indent other.indent

/-- Two open blocks that differ in their indentation only, if any is open. -/
inductive SameBlock (P : Int64 → Int64 → Prop) : Option OpenBlock → Option OpenBlock → Prop
  | none : SameBlock P none none
  | some {block : OpenBlock} {indent : Int64} (h : P block.indent indent) :
      SameBlock P (some block) (some { block with indent := indent })

variable {P : Int64 → Int64 → Prop} {tabWidth otherWidth : UInt64} {open? : Option (List Char)}
  {block? other? : Option OpenBlock} {line : List Char} {lines others : List (List Char)} {i : Nat}

/-- The structural lines of lines that differ in the blanks before them differ in their
indentation. -/
theorem structuralFrom_same (hblock : SameBlock P block? other?)
    (htrim : lines.map trim = others.map trim)
    (hinside : ∀ i < lines.length, openBefore (block?.map (·.delimiter)) lines i ≠ none →
      lines[i]? = others[i]?)
    (hindent : ∀ i < lines.length, StructuralAt (block?.map (·.delimiter)) lines i →
      P (measureIndent tabWidth (lines[i]?.getD []))
        (measureIndent otherWidth (others[i]?.getD [])))
    (number : Nat) :
    List.Forall₂ (SameLine P) (structuralFrom tabWidth block? number lines).1
        (structuralFrom otherWidth other? number others).1 ∧
      SameBlock P (structuralFrom tabWidth block? number lines).2
        (structuralFrom otherWidth other? number others).2 := by
  induction lines generalizing block? other? others number with
  | nil =>
    obtain rfl : others = [] := by simpa using htrim.symm
    simp only [structuralFrom]
    exact ⟨.nil, hblock⟩
  | cons line lines ih =>
    obtain ⟨other, others, rfl, hother, hothers⟩ := List.map_eq_cons_iff.1 htrim.symm
    have hstep : ∀ {next? nextOther? : Option OpenBlock}, SameBlock P next? nextOther? →
        openAfter (block?.map (·.delimiter)) line = next?.map (·.delimiter) →
        List.Forall₂ (SameLine P) (structuralFrom tabWidth next? (number + 1) lines).1
            (structuralFrom otherWidth nextOther? (number + 1) others).1 ∧
          SameBlock P (structuralFrom tabWidth next? (number + 1) lines).2
            (structuralFrom otherWidth nextOther? (number + 1) others).2 := by
      intro next? nextOther? hnext hafter
      refine ih hnext hothers.symm (fun i hi hopen => ?_) (fun i hi hat => ?_) (number + 1)
      · rw [← hafter] at hopen
        exact hinside (i + 1) (Nat.succ_lt_succ hi) hopen
      · rw [← hafter] at hat
        exact hindent (i + 1) (Nat.succ_lt_succ hi) hat
    cases hblock with
    | none =>
      obtain ⟨opening, hopens, heq⟩ := exists_opens (trim line)
      have hline := heq tabWidth number line rfl
      have hotherline := heq otherWidth number other hother
      have hleft := hopens.leftOpen?_eq number 0
      have hhere : IsStructural (trim line) →
          P (measureIndent tabWidth line) (measureIndent otherWidth other) :=
        fun h => hindent 0 (Nat.succ_pos _) ⟨rfl, h⟩
      cases hopens with
      | skipped hskip =>
        simp only [structuralFrom, hline, hotherline]
        exact hstep .none hleft
      | statement hstructural hplain =>
        obtain ⟨hlater, hend⟩ := hstep .none hleft
        simp only [structuralFrom, hline, hotherline]
        exact ⟨.cons ⟨rfl, rfl, hhere hstructural⟩ hlater, hend⟩
      | block hstructural hcut hclosed =>
        obtain ⟨hlater, hend⟩ := hstep .none hleft
        simp only [structuralFrom, hline, hotherline]
        exact ⟨.cons ⟨rfl, rfl, hhere hstructural⟩ hlater, hend⟩
      | unfinished hstructural hcut hrest =>
        simp only [structuralFrom, hline, hotherline]
        exact hstep (.some (hhere hstructural)) hleft
    | @some block indent hP =>
      -- Inside a block the line is the same in both scripts.
      obtain rfl : line = other :=
        Option.some.inj (hinside 0 (Nat.succ_pos _) (Option.some_ne_none _))
      cases hcut : cut? block.delimiter line with
      | some parts =>
        obtain ⟨hlater, hend⟩ := hstep .none (by simp [openAfter, contains, hcut])
        simp only [structuralFrom, hcut]
        exact ⟨.cons ⟨rfl, rfl, hP⟩ hlater, hend⟩
      | none =>
        have hextend := @SameBlock.some P (block.extend line) indent hP
        simp only [structuralFrom, hcut]
        exact hstep hextend (by simp [openAfter, contains, hcut, OpenBlock.extend])

end Structural

/-! ## What the lines add -/

section Items

/-- Two structural lines that differ in their indentation only, with what they add. -/
structure SameItem (P : Int64 → Int64 → Prop) (found other : Line × Item) : Prop where
  number : found.1.number = other.1.number
  item : found.2 = other.2
  indent : P found.1.indent other.1.indent

/-- What lines add that differ in their indentation only, or the error of the first one that is
at fault. -/
inductive SameItems (P : Int64 → Int64 → Prop) : Except ScriptError (List (Line × Item)) →
    Except ScriptError (List (Line × Item)) → Prop
  | error {error : ScriptError} : SameItems P (.error error) (.error error)
  | ok {items others : List (Line × Item)} (h : List.Forall₂ (SameItem P) items others) :
      SameItems P (.ok items) (.ok others)

variable {P : Int64 → Int64 → Prop} {line other : Line} {lines others : List Line}

theorem SameLine.item_eq (h : SameLine P line other) : line.item = other.item := by
  rw [Line.item, Line.item, h.content, h.number]

theorem readItems_same (h : List.Forall₂ (SameLine P) lines others) :
    SameItems P (readItems lines) (readItems others) := by
  induction h with
  | nil => exact .ok .nil
  | @cons line other lines others hline hlines ih =>
    rw [readItems, readItems, ← hline.item_eq]
    cases line.item with
    | error error => exact .error
    | ok item =>
      simp only
      generalize readItems lines = found at ih
      generalize readItems others = found' at ih
      cases ih with
      | error => exact .error
      | ok hitems => exact .ok (.cons ⟨hline.number, rfl, hline.indent⟩ hitems)

end Items

/-! ## The entries -/

section Nest

def KeepsOrder (Q : Int64 → Int64 → Prop) : Prop :=
  ∀ a a' b b', Q a a' → Q b b' → (a ≤ b ↔ a' ≤ b')

/-- Two lines of an outline that differ in their indentation only. -/
structure SamePlaced (Q : Int64 → Int64 → Prop) (line other : Placed) : Prop where
  number : line.number = other.number
  item : line.item = other.item
  indent : Q line.indent other.indent

variable {Q : Int64 → Int64 → Prop} {least leastOther : Int64} {lines others : List Placed}

theorem forall₂_takeWhile {α β : Type} {R : α → β → Prop} {p : α → Bool} {q : β → Bool}
    {l : List α} {l' : List β} (hpq : ∀ a b, R a b → p a = q b) (h : List.Forall₂ R l l') :
    List.Forall₂ R (l.takeWhile p) (l'.takeWhile q) := by
  induction h with
  | nil => exact .nil
  | cons hab hlater ih =>
    rw [List.takeWhile_cons, List.takeWhile_cons, hpq _ _ hab]
    split
    · exact .cons hab ih
    · exact .nil

theorem forall₂_dropWhile {α β : Type} {R : α → β → Prop} {p : α → Bool} {q : β → Bool}
    {l : List α} {l' : List β} (hpq : ∀ a b, R a b → p a = q b) (h : List.Forall₂ R l l') :
    List.Forall₂ R (l.dropWhile p) (l'.dropWhile q) := by
  induction h with
  | nil => exact .nil
  | cons hab hlater ih =>
    rw [List.dropWhile_cons, List.dropWhile_cons, hpq _ _ hab]
    split
    · exact ih
    · exact .cons hab hlater

theorem KeepsOrder.lt_iff (h : KeepsOrder Q) {a a' b b' : Int64} (ha : Q a a') (hb : Q b b') :
    a < b ↔ a' < b' := by
  rw [← Int64.not_le, ← Int64.not_le, h b b' a a' hb ha]

theorem bodies_same (hQ : KeepsOrder Q) (hleast : Q least leastOther)
    (h : List.Forall₂ (SamePlaced Q) lines others) :
    List.Forall₂ (SamePlaced Q) (bodyOf least lines) (bodyOf leastOther others) ∧
      List.Forall₂ (SamePlaced Q) (pastBody least lines) (pastBody leastOther others) := by
  cases h with
  | nil => exact ⟨.nil, .nil⟩
  | @cons first first' lines others hfirst hlater =>
    have hiff := hQ.lt_iff hleast hfirst.indent
    have hdecide : ∀ a b, SamePlaced Q a b →
        decide (first.indent ≤ a.indent) = decide (first'.indent ≤ b.indent) := fun a b hab =>
      decide_eq_decide.2 (hQ _ _ _ _ hfirst.indent hab.indent)
    by_cases hlt : least < first.indent
    · simp only [bodyOf, pastBody, hlt, hiff.1 hlt, ite_true]
      exact ⟨forall₂_takeWhile hdecide (.cons hfirst hlater),
        forall₂_dropWhile hdecide (.cons hfirst hlater)⟩
    · simp only [bodyOf, pastBody, hlt, mt hiff.2 hlt, ite_false]
      exact ⟨.nil, .cons hfirst hlater⟩

theorem nest_same (hQ : KeepsOrder Q) (h : List.Forall₂ (SamePlaced Q) lines others)
    (inMenu : Bool) (last : Option String) :
    nest inMenu last lines = nest inMenu last others := by
  fun_induction nest inMenu last lines generalizing others with
  | case1 =>
    cases h
    exact nest_nil.symm
  | case2 inMenu last line later header hheader ihbody ihpast =>
    cases h with
    | @cons _ other _ others hline hlater =>
      obtain ⟨hbody, hpast⟩ := bodies_same hQ hline.indent hlater
      rw [nest_of_header others (hline.item ▸ hheader), hline.number, ihbody hbody, ihpast hpast]
  | case3 inMenu last line later hheader ih =>
    cases h with
    | @cons _ other _ others hline hlater =>
      rw [nest_of_leaf others (hline.item ▸ hheader), hline.number, ← hline.item, ih hlater]

end Nest

/-! ## The script -/

section Script

variable {tabWidth otherWidth : UInt64} {lines others : List (List Char)}

/-- The indentations of one structural line in two scripts. -/
def SameIndent (tabWidth : UInt64) (lines : List (List Char)) (otherWidth : UInt64)
    (others : List (List Char)) (a b : Int64) : Prop :=
  ∃ i < lines.length, StructuralAt none lines i ∧
    a = measureIndent tabWidth (lines[i]?.getD []) ∧
    b = measureIndent otherWidth (others[i]?.getD [])

/-- The order by width is that by indentation, also relative to one of the lines. -/
theorem Reindented.keepsOrder (h : Reindented tabWidth lines otherWidth others)
    {origin origin' : Int64}
    (horigin : SameIndent tabWidth lines otherWidth others origin origin') :
    KeepsOrder fun a b => ∃ a₀ b₀, SameIndent tabWidth lines otherWidth others a₀ b₀ ∧
      a = a₀ - origin ∧ b = b₀ - origin' := by
  have hmeasure : ∀ a b, SameIndent tabWidth lines otherWidth others a b →
      ∃ i < lines.length, StructuralAt none lines i ∧
        a.toInt = widthAt tabWidth lines i ∧ widthAt tabWidth lines i < 2 ^ 63 ∧
        b.toInt = widthAt otherWidth others i ∧ widthAt otherWidth others i < 2 ^ 63 := by
    rintro a b ⟨i, hi, hat, rfl, rfl⟩
    obtain ⟨hfits, hfits'⟩ := h.fits i hi hat
    exact ⟨i, hi, hat, toInt_measureIndent hfits, hfits, toInt_measureIndent hfits', hfits'⟩
  obtain ⟨k, -, -, ho, hofits, ho', hofits'⟩ := hmeasure _ _ horigin
  rintro _ _ _ _ ⟨a, a', ha, rfl, rfl⟩ ⟨b, b', hb, rfl, rfl⟩
  obtain ⟨i, hi, hati, hai, hafits, hai', hafits'⟩ := hmeasure _ _ ha
  obtain ⟨j, hj, hatj, hbj, hbfits, hbj', hbfits'⟩ := hmeasure _ _ hb
  have horder := h.order i hi j hj hati hatj
  rw [Int64.le_iff_toInt_le, Int64.le_iff_toInt_le, toInt_sub_of_width hai ho hafits hofits,
    toInt_sub_of_width hbj ho hbfits hofits, toInt_sub_of_width hai' ho' hafits' hofits',
    toInt_sub_of_width hbj' ho' hbfits' hofits']
  omega

theorem outline_same (h : Reindented tabWidth lines otherWidth others)
    {items items' : List (Line × Item)}
    (hitems : List.Forall₂ (SameItem (SameIndent tabWidth lines otherWidth others)) items items') :
    outline items = outline items' := by
  rw [outline_eq_nest, outline_eq_nest]
  cases hitems with
  | nil => rfl
  | @cons first first' items items' hfirst hlater =>
    refine nest_same (h.keepsOrder hfirst.indent) ?_ _ _
    rw [List.forall₂_map_left_iff, List.forall₂_map_right_iff]
    refine List.Forall₂.imp (fun found other hsame => ?_) (List.Forall₂.cons hfirst hlater)
    exact ⟨hsame.number, hsame.item, _, _, hsame.indent, rfl, rfl⟩

/-- Indenting a script anew, in the same order, changes neither its commands nor its error. -/
theorem read_reindented {tabWidth otherWidth : UInt64} {text other : String}
    (h : Reindented tabWidth (Text.lines text.toList) otherWidth (Text.lines other.toList)) :
    read tabWidth text = read otherWidth other := by
  have hindent : ∀ i < (Text.lines text.toList).length,
      StructuralAt none (Text.lines text.toList) i →
      SameIndent tabWidth (Text.lines text.toList) otherWidth (Text.lines other.toList)
        (measureIndent tabWidth ((Text.lines text.toList)[i]?.getD []))
        (measureIndent otherWidth ((Text.lines other.toList)[i]?.getD [])) :=
    fun i hi hat => ⟨i, hi, hat, rfl, rfl⟩
  obtain ⟨hlines, hunclosed⟩ := structuralFrom_same .none h.trimmed h.inside hindent 1
  have hitems := readItems_same hlines
  rw [read, read, readOutline, readOutline, structural, structural]
  simp only
  generalize readItems (structuralFrom tabWidth none 1 _).1 = found at hitems ⊢
  generalize readItems (structuralFrom otherWidth none 1 _).1 = found' at hitems ⊢
  generalize (structuralFrom tabWidth none 1 _).2 = unclosed at hunclosed ⊢
  generalize (structuralFrom otherWidth none 1 _).2 = unclosed' at hunclosed ⊢
  cases hitems with
  | error => rfl
  | ok hitems =>
    cases hunclosed with
    | none => simp only [outline_same h hitems]
    | some hindent => rfl

/-- Tabs may stand for two spaces, and all lines may be indented more. The line inside the block
stays as it is. -/
theorem read_reindented_tabs :
    Reindented 4 (Text.lines "label a:\n  e \"\"\"x\n y\"\"\"\n  jump b\njump c".toList) 8
        (Text.lines "\tlabel a:\n\t\te \"\"\"x\n y\"\"\"\n\t\tjump b\n\tjump c".toList) ∧
      read 4 "label a:\n  e \"\"\"x\n y\"\"\"\n  jump b\njump c" =
        read 8 "\tlabel a:\n\t\te \"\"\"x\n y\"\"\"\n\t\tjump b\n\tjump c" := by
  have h : Reindented 4
      (Text.lines "label a:\n  e \"\"\"x\n y\"\"\"\n  jump b\njump c".toList) 8
      (Text.lines "\tlabel a:\n\t\te \"\"\"x\n y\"\"\"\n\t\tjump b\n\tjump c".toList) :=
    ⟨by decide +kernel, by decide +kernel, by decide +kernel, by decide +kernel⟩
  exact ⟨h, read_reindented h⟩

end Script

end StoryScript.Script
