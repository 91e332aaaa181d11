import StoryScript.Proofs.Lines.Statements
import StoryScript.Proofs.Nesting.Draft
import StoryScript.Script.Reader

/-! # Scripts with lines between

Blank lines and comments have no part in a script, wherever they stand outside its blocks. All they
do is to give other numbers to the lines after them, and a number appears in an error alone.
-/

namespace StoryScript

def ScriptError.renumber (f : Nat → Nat) : ScriptError → ScriptError
  | malformedDefinition line text message => .malformedDefinition (f line) text message
  | invalidNumber line text => .invalidNumber (f line) text
  | unterminatedBlock line text => .unterminatedBlock (f line) text

namespace Script

open Text

variable {f : Nat → Nat}

/-! ## Lines with other numbers -/

def Line.renumber (f : Nat → Nat) (line : Line) : Line :=
  { line with number := f line.number }

def OpenBlock.renumber (f : Nat → Nat) (block : OpenBlock) : OpenBlock :=
  { block with number := f block.number }

section Structural

variable {tabWidth : UInt64} {number other : Nat} {lines : List (List Char)}
  {block? : Option OpenBlock}

/-- Lines that are counted otherwise are read as the same structural lines with other numbers. -/
theorem structuralFrom_renumber (h : ∀ i < lines.length, f (number + i) = other + i) :
    structuralFrom tabWidth (block?.map (·.renumber f)) other lines =
      ((structuralFrom tabWidth block? number lines).1.map (·.renumber f),
        (structuralFrom tabWidth block? number lines).2.map (·.renumber f)) := by
  induction lines generalizing block? number other with
  | nil => simp [structuralFrom]
  | cons line lines ih =>
    have hfirst : f number = other := h 0 (Nat.succ_pos _)
    have hlater : ∀ i < lines.length, f (number + 1 + i) = other + 1 + i := by
      intro i hi
      have hnext := h (i + 1) (Nat.succ_lt_succ hi)
      rwa [Nat.add_comm i 1, ← Nat.add_assoc, ← Nat.add_assoc] at hnext
    have houtside := @ih (number + 1) (other + 1) none hlater
    have hinside : ∀ block : OpenBlock,
        structuralFrom tabWidth (some (block.renumber f)) (other + 1) lines = ((structuralFrom tabWidth (some block) (number + 1) lines).1.map (·.renumber f),
          (structuralFrom tabWidth (some block) (number + 1) lines).2.map (·.renumber f)) :=
      fun block => @ih (number + 1) (other + 1) (some block) hlater
    rw [Option.map_none] at houtside
    subst hfirst
    -- The block that is open decides how a line is read, and its number has no part in that.
    cases block? with
    | none =>
      obtain ⟨opening, hopens, heq⟩ := exists_opens (trim line)
      have hline := heq tabWidth number line rfl
      have hotherline := heq tabWidth (f number) line rfl
      cases hopens with
      | skipped => simpa only [Option.map_none, structuralFrom, hline, hotherline] using houtside
      | statement | block =>
        simp only [Option.map_none, structuralFrom, hline, hotherline, houtside]
        rfl
      | @unfinished delimiter before rest =>
        simp only [Option.map_none, structuralFrom, hline, hotherline]
        exact hinside ⟨number, measureIndent tabWidth line, nonBlank? before, delimiter, trim line,
          [trim rest]⟩
    | some block =>
      have hdelimiter : (block.renumber f).delimiter = block.delimiter := rfl
      cases hcut : cut? block.delimiter line with
      | some parts =>
        simp only [Option.map_some, structuralFrom, hdelimiter, hcut, houtside]
        rfl
      | none =>
        simp only [Option.map_some, structuralFrom, hdelimiter, hcut]
        exact hinside (block.extend line)

theorem structuralFrom_skipped (h : ∀ line ∈ lines, ¬IsStructural (trim line)) :
    structuralFrom tabWidth none number lines = ([], none) := by
  induction lines generalizing number with
  | nil => rfl
  | cons line lines ih =>
    obtain ⟨hline, hlater⟩ := List.forall_mem_cons.1 h
    obtain ⟨opening, hopens, heq⟩ := exists_opens (trim line)
    have hopen := heq tabWidth number line rfl
    cases hopens with
    | skipped => simp only [structuralFrom, hopen, ih hlater]
    | statement hstructural | block hstructural | unfinished hstructural =>
      exact absurd hstructural hline

end Structural

section Items

theorem toError_renumber (fault : StatementFault) (line : Nat) (text : List Char) :
    (fault.toError line text).renumber f = fault.toError (f line) text := by
  cases fault <;> rfl

theorem item_renumber (line : Line) :
    (line.renumber f).item = line.item.mapError (·.renumber f) := by
  have hcontent : (line.renumber f).content = line.content := rfl
  rw [Line.item, Line.item, hcontent]
  cases line.content with
  | block speaker text => rfl
  | statement text =>
    simp only
    cases Statement.read text with
    | ok statement => rfl
    | error fault => exact congrArg Except.error (toError_renumber fault _ _).symm

theorem readItems_renumber (lines : List Line) :
    readItems (lines.map (·.renumber f)) =
      ((readItems lines).map (List.map fun found => (found.1.renumber f, found.2))).mapError
        (·.renumber f) := by
  induction lines with
  | nil => rfl
  | cons line lines ih =>
    rw [List.map_cons, readItems, readItems, item_renumber, ih]
    cases line.item with
    | error error => rfl
    | ok item => cases readItems lines <;> rfl

end Items

/-! ## Entries with other numbers -/

def Placed.renumber (f : Nat → Nat) (line : Placed) : Placed :=
  { line with number := f line.number }

@[simp] theorem Placed.indent_renumber (line : Placed) :
    (line.renumber f).indent = line.indent := rfl

@[simp] theorem Placed.item_renumber (line : Placed) : (line.renumber f).item = line.item := rfl

namespace Entry

mutual

def renumber (f : Nat → Nat) : Entry → Entry
  | leaf line command => leaf (f line) command
  | node line header entries => node (f line) header (renumberAll f entries)

def renumberAll (f : Nat → Nat) : List Entry → List Entry
  | [] => []
  | entry :: entries => entry.renumber f :: renumberAll f entries

end

theorem renumberAll_eq_map (entries : List Entry) :
    renumberAll f entries = entries.map (·.renumber f) := by
  induction entries with
  | nil => rfl
  | cons entry entries ih => rw [renumberAll, ih, List.map_cons]

mutual

theorem toCommand_renumber (entry : Entry) : (entry.renumber f).toCommand = entry.toCommand := by
  cases entry with
  | leaf line command => rw [renumber, toCommand, toCommand]
  | node line header entries =>
    cases header with
    | menu => rw [renumber, toCommand, toCommand, toChoices_renumberAll]
    | label | choice | ifBranch | elifBranch | elseBranch =>
      rw [renumber, toCommand, toCommand, toCommands_renumberAll]

theorem toCommands_renumberAll (entries : List Entry) :
    toCommands (renumberAll f entries) = toCommands entries := by
  cases entries with
  | nil => rfl
  | cons entry entries =>
    rw [renumberAll, toCommands, toCommands, toCommand_renumber, toCommands_renumberAll]

theorem toChoices_renumberAll (entries : List Entry) :
    toChoices (renumberAll f entries) = toChoices entries := by
  cases entries with
  | nil => rfl
  | cons entry entries =>
    have hlater := toChoices_renumberAll entries
    cases entry with
    | leaf line command => simpa only [renumberAll, renumber, toChoices] using hlater
    | node line header body =>
      have hbody := toCommands_renumberAll body
      cases header <;> simp only [renumberAll, renumber, toChoices, hlater, hbody]

end

end Entry

section Nest

open Entry

variable {lines : List Placed} {inMenu : Bool} {last : Option String}

theorem bodies_renumber (indent : Int64) (lines : List Placed) :
    bodyOf indent (lines.map (·.renumber f)) = (bodyOf indent lines).map (·.renumber f) ∧
      pastBody indent (lines.map (·.renumber f)) = (pastBody indent lines).map (·.renumber f) := by
  cases lines with
  | nil => exact ⟨rfl, rfl⟩
  | cons first later =>
    have htake : ((first :: later).map (·.renumber f)).takeWhile (first.indent ≤ ·.indent) =
        ((first :: later).takeWhile (first.indent ≤ ·.indent)).map (·.renumber f) :=
      List.takeWhile_map
    have hdrop : ((first :: later).map (·.renumber f)).dropWhile (first.indent ≤ ·.indent) =
        ((first :: later).dropWhile (first.indent ≤ ·.indent)).map (·.renumber f) :=
      List.dropWhile_map
    by_cases hlt : indent < first.indent
    · simp only [List.map_cons, bodyOf, pastBody, Placed.indent_renumber, hlt, ite_true]
      exact ⟨htake, hdrop⟩
    · simp only [List.map_cons, bodyOf, pastBody, Placed.indent_renumber, hlt, ite_false,
        List.map_nil, and_self]

theorem nest_renumber :
    nest inMenu last (lines.map (·.renumber f)) = renumberAll f (nest inMenu last lines) := by
  fun_induction nest inMenu last lines with
  | case1 => rw [List.map_nil, nest_nil, renumberAll]
  | case2 inMenu last line later header hheader ihbody ihpast =>
    have hother : (line.renumber f).item.header? inMenu = some header := hheader
    obtain ⟨hbody, hpast⟩ := @bodies_renumber f line.indent later
    rw [List.map_cons, nest_of_header _ hother, Placed.indent_renumber, hbody, hpast, ihbody,
      ihpast, renumberAll, renumber]
    rfl
  | case3 inMenu last line later hheader ih =>
    have hother : (line.renumber f).item.header? inMenu = none := hheader
    rw [List.map_cons, nest_of_leaf _ hother, Placed.item_renumber, ih, renumberAll_eq_map,
      renumberAll_eq_map, List.map_append, List.map_map]
    rfl

end Nest

section Script

open Entry

variable {tabWidth : UInt64} {text other : String} {before inserted after : List (List Char)}

theorem outline_renumber (items : List (Line × Item)) :
    outline (items.map fun found => (found.1.renumber f, found.2)) =
      renumberAll f (outline items) := by
  have horigin : origin (items.map fun found => (found.1.renumber f, found.2)) = origin items := by
    cases items <;> rfl
  rw [outline_eq_nest, outline_eq_nest, ← nest_renumber, horigin, List.map_map, List.map_map]
  rfl

/-- Scripts whose structural lines differ in their numbers have the same commands, or the same
error on a line with another number. -/
theorem read_of_renumbered
    (h : structural tabWidth other.toList =
      ((structural tabWidth text.toList).1.map (·.renumber f),
        (structural tabWidth text.toList).2.map (·.renumber f))) :
    read tabWidth other = (read tabWidth text).mapError (·.renumber f) := by
  rw [read, read, readOutline, readOutline, h]
  obtain ⟨lines, unclosed⟩ := structural tabWidth text.toList
  simp only [readItems_renumber]
  cases readItems lines with
  | error error => rfl
  | ok items =>
    cases unclosed with
    | some block => rfl
    | none =>
      refine congrArg Except.ok ?_
      rw [outline_renumber, toCommands_renumberAll]

/-- The number of a line after some lines have been inserted behind the first ones. -/
def movedBy (first inserted : Nat) (number : Nat) : Nat :=
  if number ≤ first then number else number + inserted

/-- The structural lines of a script are those of the script with blank lines and comments
inserted outside its blocks, with other numbers. -/
theorem structural_insert (htext : lines text.toList = before ++ after)
    (hother : lines other.toList = before ++ (inserted ++ after))
    (houtside : openBefore none before before.length = none)
    (hinserted : ∀ line ∈ inserted, ¬IsStructural (trim line)) :
    structural tabWidth other.toList =
      ((structural tabWidth text.toList).1.map
          (·.renumber (movedBy before.length inserted.length)),
        (structural tabWidth text.toList).2.map
          (·.renumber (movedBy before.length inserted.length))) := by
  have hbefore : ∀ i < before.length, movedBy before.length inserted.length (1 + i) = 1 + i :=
    fun i hi => if_pos (by omega)
  have hafter : ∀ i < after.length, movedBy before.length inserted.length (1 + before.length + i) =
      1 + before.length + inserted.length + i := fun i hi => by
    rw [movedBy, if_neg (by omega)]
    omega
  have hfirst := @structuralFrom_renumber _ tabWidth 1 1 before none hbefore
  have hlater := @structuralFrom_renumber _ tabWidth (1 + before.length)
    (1 + before.length + inserted.length) after none hafter
  rw [Option.map_none] at hfirst hlater
  -- The lines before the place keep their numbers.
  have hkept : (structuralFrom tabWidth none 1 before).1.map
      (·.renumber (movedBy before.length inserted.length)) =
        (structuralFrom tabWidth none 1 before).1 :=
    (congrArg Prod.fst hfirst).symm
  simp only [structural, htext, hother, structuralFrom_append, structuralFrom_eq_none houtside,
    structuralFrom_skipped hinserted, hlater, List.nil_append, List.map_append, hkept]

/-- Blank lines and comments that are inserted between two lines of a script, where no block is
open, change neither its commands nor its error, whose line is numbered anew. -/
theorem read_insert (htext : lines text.toList = before ++ after)
    (hother : lines other.toList = before ++ (inserted ++ after))
    (houtside : openBefore none before before.length = none)
    (hinserted : ∀ line ∈ inserted, trim line = [] ∨ (trim line).head? = some '#') :
    read tabWidth other =
      (read tabWidth text).mapError (·.renumber (movedBy before.length inserted.length)) := by
  refine read_of_renumbered (structural_insert htext hother houtside fun line hline => ?_)
  rintro ⟨hne, hcomment⟩
  exact (hinserted line hline).elim hne hcomment

/-- A comment that looks like a block and blank lines stand between a header and its body, whose
indentation is not known before them. The faulty line behind them moves on by three. -/
theorem read_insert_in_label :
    Text.lines "label a:\n    e \"Hi\"\n  pause x".toList =
        ["label a:".toList] ++ ["    e \"Hi\"".toList, "  pause x".toList] ∧
      openBefore none ["label a:".toList] 1 = none ∧
      read 4 "label a:\n\n\t# \"\"\"\n \n    e \"Hi\"\n  pause x" =
        (read 4 "label a:\n    e \"Hi\"\n  pause x").mapError (·.renumber (movedBy 1 3)) := by
  have htext : Text.lines "label a:\n    e \"Hi\"\n  pause x".toList =
      ["label a:".toList] ++ ["    e \"Hi\"".toList, "  pause x".toList] := by
    decide +kernel
  have hother : Text.lines "label a:\n\n\t# \"\"\"\n \n    e \"Hi\"\n  pause x".toList =
      ["label a:".toList] ++ (["".toList, "\t# \"\"\"".toList, " ".toList] ++
        ["    e \"Hi\"".toList, "  pause x".toList]) := by
    decide +kernel
  have houtside : openBefore none ["label a:".toList] 1 = none := by decide +kernel
  exact ⟨htext, houtside, read_insert htext hother houtside (by decide +kernel)⟩

end Script

end Script

end StoryScript
