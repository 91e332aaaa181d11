import StoryScript.Proofs.Lines.Statements
import StoryScript.Proofs.WellFormed.Script

/-! # Where speakers come from

A speaker is named on a line, in front of a quoted text or of a triple-quoted block, and a block
without one is spoken by a speaker named before it. In front of a quoted text only words of the
characters of names are a speaker. In front of a block any text is one.
-/

namespace StoryScript.Script

open Text Entry

/-! ## Lines that name speakers -/

/-- The speaker that an item names. -/
def Item.named? : Item → Option String
  | .block speaker _ => speaker
  | .statement (.simple (.dialogue speaker _)) => speaker
  | _ => none

/-- A speaker is named on the line with an index, in front of a quoted text or of a block. -/
inductive NamedAt (lines : List (List Char)) (i : Nat) (name : String) : Prop
  | quoted {text : List Char} {said : String} (hat : StatementAt none lines i text)
      (hread : Statement.read text = .ok (.simple (.dialogue (some name) said)))
  | block {before : List Char} (hat : BlockAt none lines i before)
      (hname : nonBlank? before = some name.toList)

section Named

variable {inMenu : Bool} {last : Option String} {lines : List Placed} {item : Item}
  {name said : String} {number : Nat}

theorem eq_some_or_of_orElse {speaker : Option String} (h : (speaker <|> last) = some name) :
    speaker = some name ∨ last = some name :=
  ((Option.orElse_eq_some _ _ _).1 h).imp_right And.right

theorem Item.named?_or_of_speaker (h : item.speaker last = some name) :
    item.named? = some name ∨ last = some name := by
  unfold Item.speaker at h
  split at h
  · exact eq_some_or_of_orElse h
  · exact eq_some_or_of_orElse h
  · exact .inr h

theorem Item.named?_or_of_leaf? (h : item.leaf? last = some (.dialogue (some name) said)) :
    item.named? = some name ∨ last = some name := by
  unfold Item.leaf? at h
  split at h
  · exact eq_some_or_of_orElse (Command.dialogue.inj (Option.some.inj h)).1
  · cases h
    exact .inl rfl
  · cases h
  · cases h

/-- The speaker of a line of speech is named on a line, or was the last one before all lines. -/
theorem exists_named_of_mem_nest
    (h : .leaf number (.dialogue (some name) said) ∈ preorder (nest inMenu last lines)) :
    (∃ line ∈ lines, line.item.named? = some name) ∨ last = some name := by
  fun_induction nest inMenu last lines with
  | case1 => cases h
  | case2 inMenu last line later found hfound ihbody ihpast =>
    rw [preorder, withInner, List.mem_append, List.mem_cons] at h
    rcases h with (h | h) | h
    · cases h
    · obtain ⟨other, hother, hnamed⟩ := (ihbody h).resolve_right (Option.some_ne_none name).symm
      exact .inl ⟨other, List.mem_cons_of_mem _ (mem_of_mem_bodyOf hother), hnamed⟩
    · rcases ihpast h with ⟨other, hother, hnamed⟩ | hlast
      · exact .inl ⟨other, List.mem_cons_of_mem _ (mem_of_mem_pastBody hother), hnamed⟩
      · exact .inr hlast
  | case3 inMenu last line later hnone ih =>
    have hline : line.item.named? = some name ∨ last = some name →
        (∃ other ∈ line :: later, other.item.named? = some name) ∨ last = some name :=
      Or.imp_left fun hnamed => ⟨line, List.mem_cons_self, hnamed⟩
    rw [preorder_append, List.mem_append] at h
    rcases h with h | h
    · cases hleaf : line.item.leaf? last with
      | none =>
        rw [hleaf] at h
        cases h
      | some command =>
        simp only [hleaf, Option.toList_some, List.map_singleton, preorder, withInner,
          List.append_nil, List.mem_singleton] at h
        cases h
        exact hline (Item.named?_or_of_leaf? hleaf)
    · rcases ih h with ⟨other, hother, hnamed⟩ | hlast
      · exact .inl ⟨other, List.mem_cons_of_mem _ hother, hnamed⟩
      · exact hline (Item.named?_or_of_speaker hlast)

end Named

/-! ## Names in front of texts -/

section Speakers

variable {tabWidth : UInt64} {text : String} {script : List Command} {name said : String}

theorem Statement.isSpeaker_of_read {line : List Char}
    (h : read line = .ok (.simple (.dialogue (some name) said))) :
    name.toList ≠ [] ∧ trim name.toList = name.toList ∧ isSpeaker name.toList = true := by
  have hyields := yields_read line
  generalize read line = reading at h hyields
  cases hyields with
  | dialogue hspeaker =>
    cases h
    obtain ⟨rfl, hne, hnames⟩ := hspeaker name rfl
    rw [String.toList_ofList]
    exact ⟨hne, trim_trim _, hnames⟩
  | pauseFor | playMusic | stopMusic =>
    obtain ⟨_, -, hbuilt⟩ := exists_of_map_eq_ok h
    cases hbuilt
  | _ => cases h

theorem nonBlank?_eq_some_iff {before s : List Char} :
    nonBlank? before = some s ↔ trim before = s ∧ s ≠ [] := by
  unfold nonBlank?
  simp only
  split
  · rename_i hempty
    constructor
    · rintro ⟨⟩
    · rintro ⟨rfl, hne⟩
      exact absurd (List.isEmpty_iff.1 hempty) hne
  · rename_i hempty
    constructor
    · rintro ⟨⟩
      exact ⟨rfl, by simpa using hempty⟩
    · rintro ⟨rfl, -⟩
      rfl

/-- The speaker that the item of a line names stands on a line of the script. -/
theorem exists_namedAt_of_item {line : Line} {item : Item}
    (hline : line ∈ (structural tabWidth text.toList).1) (hitem : line.item = .ok item)
    (hnamed : item.named? = some name) : ∃ i, NamedAt (lines text.toList) i name := by
  rw [Line.item] at hitem
  cases hcontent : line.content with
  | block speaker content =>
    rw [hcontent] at hitem
    cases hitem
    obtain ⟨chars, rfl, rfl⟩ := Option.map_eq_some_iff.1 hnamed
    obtain ⟨i, before, hat, hname⟩ := exists_blockAt_of_mem_structural hline hcontent
    refine ⟨i, .block hat ?_⟩
    rw [String.toList_ofList, hname]
  | statement content =>
    obtain ⟨i, -, hat⟩ := statement_mem_structural_iff.1 ⟨line, hline, rfl, hcontent⟩
    rw [hcontent] at hitem
    simp only at hitem
    split at hitem <;> cases hitem
    rename_i statement hread
    unfold Item.named? at hnamed
    split at hnamed
    · cases ‹Item.statement statement = _›
    · cases ‹Item.statement statement = _›
      cases hnamed
      exact ⟨i, .quoted hat hread⟩
    · cases hnamed

theorem exists_leaf_of_toCommand {speaker : Option String} {entry : Entry}
    (h : Command.dialogue speaker said = entry.toCommand) :
    ∃ number, entry = .leaf number (.dialogue speaker said) := by
  cases entry with
  | leaf number command => exact ⟨number, congrArg _ h.symm⟩
  | node number header body => cases header <;> cases h

theorem exists_namedAt_of_within (h : read tabWidth text = .ok script)
    (hwithin : Within script (.dialogue (some name) said)) :
    ∃ i, NamedAt (lines text.toList) i name := by
  obtain ⟨entries, hentries, rfl⟩ := exists_of_map_eq_ok h
  obtain ⟨around, entry, hstands, -, hcommand⟩ := exists_stands_of_readOutline hentries hwithin
  obtain ⟨number, rfl⟩ := exists_leaf_of_toCommand hcommand
  obtain ⟨items, hitems, rfl⟩ := readOutline_eq_ok hentries
  obtain ⟨placed, hplaced, hnamed⟩ :=
    (exists_named_of_mem_nest hstands.mem_preorder).resolve_right (Option.some_ne_none name).symm
  obtain ⟨line, hline, hitem⟩ := exists_line_of_mem_placed hitems hplaced
  exact exists_namedAt_of_item hline hitem hnamed

theorem NamedAt.isSpeaker_or_blockAt {lines : List (List Char)} {i : Nat}
    (h : NamedAt lines i name) :
    name ≠ "" ∧ trim name.toList = name.toList ∧
      (Statement.isSpeaker name.toList = true ∨
        ∃ before, BlockAt none lines i before ∧ trim before = name.toList) := by
  cases h with
  | quoted hat hread =>
    obtain ⟨hne, htrim, hnames⟩ := Statement.isSpeaker_of_read hread
    exact ⟨by simpa using hne, htrim, .inl hnames⟩
  | @block before hat hname =>
    obtain ⟨hbefore, hne⟩ := nonBlank?_eq_some_iff.1 hname
    refine ⟨by simpa using hne, ?_, .inr ⟨before, hat, hbefore⟩⟩
    rw [← hbefore, trim_trim]

/-- A speaker in a script that is read, at any depth, is not empty and has no blanks around it. It
consists of words of the characters of names or is what stands in front of a block that begins on a
line of the script. So if only such words stand in front of blocks, every speaker consists of
them. -/
theorem isSpeaker_or_blockAt_of_read (h : read tabWidth text = .ok script) :
    (∀ name said, Within script (.dialogue (some name) said) →
      name ≠ "" ∧ trim name.toList = name.toList ∧
        (Statement.isSpeaker name.toList = true ∨
          ∃ i before, BlockAt none (lines text.toList) i before ∧ trim before = name.toList)) ∧
    ((∀ i before, BlockAt none (lines text.toList) i before →
        Statement.isSpeaker (trim before) = true) →
      ∀ name said, Within script (.dialogue (some name) said) →
        name ≠ "" ∧ Statement.isSpeaker name.toList = true) := by
  have hspeaker : ∀ name said, Within script (.dialogue (some name) said) →
      name ≠ "" ∧ trim name.toList = name.toList ∧
        (Statement.isSpeaker name.toList = true ∨
          ∃ i before, BlockAt none (lines text.toList) i before ∧
            trim before = name.toList) := by
    intro name said hwithin
    obtain ⟨i, hnamed⟩ := exists_namedAt_of_within h hwithin
    obtain ⟨hne, htrim, hwords⟩ := hnamed.isSpeaker_or_blockAt
    exact ⟨hne, htrim, hwords.imp_right fun ⟨before, hat⟩ => ⟨i, before, hat⟩⟩
  refine ⟨hspeaker, fun hblocks name said hwithin => ?_⟩
  obtain ⟨hne, -, hnames | ⟨i, before, hat, hbefore⟩⟩ := hspeaker name said hwithin
  · exact ⟨hne, hnames⟩
  · refine ⟨hne, ?_⟩
    rw [← hbefore]
    exact hblocks i before hat

def greeting : List Char := "e \"\"\"Hi.\"\"\"".toList

theorem isSpeaker_or_blockAt_of_read_greeting :
    read defaultTabWidth (.ofList greeting) = .ok [.dialogue (some "e") "Hi."] ∧
      (∀ i before, BlockAt none (lines greeting) i before →
        Statement.isSpeaker (trim before) = true) ∧
      "e" ≠ "" ∧ Statement.isSpeaker "e".toList = true := by
  have hlines : lines greeting = [greeting] := by decide +kernel
  have hopen : openLine defaultTabWidth 1 greeting =
      .complete ⟨1, 0, .block (some ['e']) "Hi.".toList⟩ := by
    decide +kernel
  have hread : read defaultTabWidth (.ofList greeting) = .ok [.dialogue (some "e") "Hi."] := by
    rw [read, readOutline_of_complete hlines hopen rfl]
    rfl
  have hblocks : ∀ i before, BlockAt none (lines greeting) i before →
      Statement.isSpeaker (trim before) = true := by
    intro i before hat
    obtain ⟨line, hline, -, delimiter, rest, hcut⟩ := hat.begins
    have hparts : cutAtDelimiter? (trim greeting) =
        some (['"', '"', '"'], ['e', ' '], "Hi.\"\"\"".toList) := by
      decide +kernel
    rw [hlines] at hline
    obtain rfl := List.mem_singleton.1 (List.mem_of_getElem? hline)
    rw [hparts] at hcut
    cases hcut
    decide +kernel
  refine ⟨hread, hblocks, (isSpeaker_or_blockAt_of_read hread).2 ?_ "e" "Hi." ?_⟩
  · rwa [String.toList_ofList]
  · exact .here List.mem_cons_self

/-- What assigns a text between triple quotes is read as that text, spoken by what stands before
it. -/
theorem exists_within_not_isSpeaker :
    ∃ text script name said, read defaultTabWidth text = .ok script ∧
      Within script (.dialogue (some name) said) ∧ Statement.isSpeaker name.toList = false := by
  have hlines : lines "$ x = \"\"\"hi\"\"\"".toList = ["$ x = \"\"\"hi\"\"\"".toList] := by
    decide +kernel
  have hopen : openLine defaultTabWidth 1 "$ x = \"\"\"hi\"\"\"".toList =
      .complete ⟨1, 0, .block (some "$ x =".toList) "hi".toList⟩ := by
    decide +kernel
  have hread : read defaultTabWidth (.ofList "$ x = \"\"\"hi\"\"\"".toList) =
      .ok [.dialogue (some "$ x =") "hi"] := by
    rw [read, readOutline_of_complete hlines hopen rfl]
    rfl
  exact ⟨_, _, "$ x =", "hi", hread, .here List.mem_cons_self, by decide +kernel⟩

end Speakers

end StoryScript.Script
