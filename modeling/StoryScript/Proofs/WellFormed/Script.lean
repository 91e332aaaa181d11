import StoryScript.Proofs.Lines.Blocks
import StoryScript.Proofs.Nesting.Script
import StoryScript.Proofs.WellFormed.Statement

/-! # Scripts that are read are well formed

The lines of a script have no carriage returns, and what stands on them nests so that a choice is
always an entry of a menu. So every command of a script that is read, at any depth, is well formed.
-/

namespace StoryScript.Script

open Text

/-! ## Lines -/

section Lines

variable {tabWidth : UInt64} {block? : Option OpenBlock} {number : Nat} {s : List Char}
  {lines : List (List Char)}

theorem not_return_of_mem_lines : ∀ line ∈ Text.lines s, '\r' ∉ line := by
  intro line hline hmem
  have hwithin := @mem_intercalate '\n' _ _ _ hline hmem
  rw [Text.lines, List.intercalate_splitOn] at hwithin
  exact unifyLineEnds_ne_carriageReturn s ((List.dropWhile_suffix _).subset hwithin)

def Content.HasNoReturn : Content → Prop
  | .statement text => '\r' ∉ text
  | .block speaker text => (∀ name ∈ speaker, '\r' ∉ name) ∧ '\r' ∉ text

/-- Whether what has been read of a block has no carriage return. -/
structure OpenBlock.HasNoReturn (block : OpenBlock) : Prop where
  speaker : ∀ name ∈ block.speaker, '\r' ∉ name
  collected : ∀ line ∈ block.collected, '\r' ∉ line

theorem not_return_trim (hs : '\r' ∉ s) : '\r' ∉ trim s :=
  fun hmem => hs (trim_subset s hmem)

theorem not_return_nonBlank? (hs : '\r' ∉ s) : ∀ name ∈ nonBlank? s, '\r' ∉ name := by
  intro name hname
  unfold nonBlank? at hname
  simp only at hname
  split at hname <;> cases hname
  exact not_return_trim hs

theorem OpenBlock.HasNoReturn.close {block : OpenBlock} (h : block.HasNoReturn) {last : List Char}
    (hlast : '\r' ∉ last) : (block.close last).content.HasNoReturn := by
  refine ⟨h.speaker, not_return_trim fun hmem => ?_⟩
  rcases eq_or_of_mem_intercalate hmem with hseparator | ⟨line, hline, hreturn⟩
  · cases hseparator
  · rcases List.mem_cons.1 (List.mem_reverse.1 hline) with rfl | hline
    · exact hlast hreturn
    · exact h.collected line hline hreturn

theorem OpenBlock.HasNoReturn.extend {block : OpenBlock} (h : block.HasNoReturn) {line : List Char}
    (hline : '\r' ∉ line) : (block.extend line).HasNoReturn :=
  ⟨h.speaker, List.forall_mem_cons.2 ⟨hline, h.collected⟩⟩

/-- How a line without carriage returns is read outside any block. -/
theorem not_return_openLine {line : List Char} (hline : '\r' ∉ line) :
    (∀ found, openLine tabWidth number line = .complete found → found.content.HasNoReturn) ∧
      ∀ block, openLine tabWidth number line = .unfinished block → block.HasNoReturn := by
  obtain ⟨opening, hopens, heq⟩ := exists_opens (trim line)
  rw [heq tabWidth number line rfl]
  have htext := not_return_trim hline
  cases hopens with
  | skipped hskip => exact ⟨nofun, nofun⟩
  | statement hstructural hplain =>
    refine ⟨?_, nofun⟩
    rintro _ ⟨⟩
    exact htext
  | block hstructural hcut hinside =>
    obtain ⟨-, hparts⟩ := eq_append_of_cutAtDelimiter? hcut
    simp only [hparts, List.mem_append, not_or] at htext
    refine ⟨?_, nofun⟩
    rintro _ ⟨⟩
    exact ⟨not_return_nonBlank? htext.1, not_return_trim htext.2.2.1⟩
  | unfinished hstructural hcut hrest =>
    obtain ⟨-, hparts⟩ := eq_append_of_cutAtDelimiter? hcut
    simp only [hparts, List.mem_append, not_or] at htext
    refine ⟨nofun, ?_⟩
    rintro _ ⟨⟩
    refine ⟨not_return_nonBlank? htext.1, fun line hmem => ?_⟩
    rw [List.mem_singleton.1 hmem]
    exact not_return_trim htext.2.2

/-- Nothing that stands on the structural lines has a carriage return. -/
theorem not_return_structuralFrom (hlines : ∀ line ∈ lines, '\r' ∉ line)
    (hblock : ∀ block ∈ block?, block.HasNoReturn) :
    ∀ found ∈ (structuralFrom tabWidth block? number lines).1, found.content.HasNoReturn := by
  fun_induction structuralFrom tabWidth block? number lines with
  | case1 => simp
  | case2 block number line lines last rest hcut later unclosed heq ih =>
    obtain ⟨hline, hlater⟩ := List.forall_mem_cons.1 hlines
    rw [heq] at ih
    refine List.forall_mem_cons.2
      ⟨(hblock block rfl).close fun hmem => hline ?_, ih hlater (by simp)⟩
    rw [(cut?_eq_some_iff.1 hcut).2.1]
    exact List.mem_append_left _ hmem
  | case3 block number line lines hcut ih =>
    obtain ⟨hline, hlater⟩ := List.forall_mem_cons.1 hlines
    refine ih hlater ?_
    rintro _ ⟨⟩
    exact (hblock block rfl).extend hline
  | case4 number line lines hopen ih => exact ih (List.forall_mem_cons.1 hlines).2 (by simp)
  | case5 number line lines complete hopen later unclosed heq ih =>
    obtain ⟨hline, hlater⟩ := List.forall_mem_cons.1 hlines
    rw [heq] at ih
    exact List.forall_mem_cons.2 ⟨(not_return_openLine hline).1 _ hopen, ih hlater (by simp)⟩
  | case6 number line lines block hopen ih =>
    obtain ⟨hline, hlater⟩ := List.forall_mem_cons.1 hlines
    refine ih hlater ?_
    rintro _ ⟨⟩
    exact (not_return_openLine hline).2 _ hopen

end Lines

/-! ## Entries -/

/-- Whether what a line adds is well formed, wherever it stands. -/
def Item.WellFormed : Item → Prop
  | .statement found =>
    ∀ command ∈ found.command?, command.WellFormed ∧ command.inner = []
  | .block speaker text => (∀ name ∈ speaker, '\r' ∉ name.toList) ∧ '\r' ∉ text.toList

/-- Whether an entry is well formed, the entries in its body left out. -/
def Entry.WellFormed (inMenu : Bool) : Entry → Prop
  | .leaf _ command => command.WellFormed ∧ command.inner = []
  | .node _ (.choice prompt) _ => inMenu = true ∧ '\r' ∉ prompt.toList
  | .node _ header _ => (Entry.node 0 header []).toCommand.WellFormed

section Entries

variable {inMenu : Bool} {last : Option String} {lines : List Placed} {item : Item}

theorem wellFormed_of_item {line : Line} (h : line.item = .ok item)
    (hcontent : line.content.HasNoReturn) : item.WellFormed := by
  rw [Line.item] at h
  cases hline : line.content with
  | block speaker text =>
    rw [hline] at h hcontent
    cases h
    rw [Content.HasNoReturn] at hcontent
    refine ⟨fun name hname => ?_, by rw [String.toList_ofList]; exact hcontent.2⟩
    obtain ⟨chars, hchars, rfl⟩ := Option.map_eq_some_iff.1 hname
    rw [String.toList_ofList]
    exact hcontent.1 chars hchars
  | statement text =>
    rw [hline] at h hcontent
    simp only at h
    split at h <;> cases h
    exact Statement.wellFormed_of_read ‹_› hcontent

theorem not_return_orElse {speaker : Option String} (h : ∀ name ∈ speaker, '\r' ∉ name.toList)
    (hlast : ∀ name ∈ last, '\r' ∉ name.toList) :
    ∀ name ∈ speaker <|> last, '\r' ∉ name.toList := by
  cases speaker with
  | none => exact hlast
  | some name => exact h

theorem Item.WellFormed.speaker (h : item.WellFormed) (hlast : ∀ name ∈ last, '\r' ∉ name.toList) :
    ∀ name ∈ item.speaker last, '\r' ∉ name.toList := by
  unfold Item.speaker
  split
  · exact not_return_orElse h.1 hlast
  · have htexts := (h _ rfl).1.texts
    refine not_return_orElse (fun name hname => ?_) hlast
    exact htexts name (List.mem_cons_of_mem _ (Option.mem_toList.2 hname))
  · exact hlast

theorem Item.WellFormed.leaf (h : item.WellFormed) (hlast : ∀ name ∈ last, '\r' ∉ name.toList)
    {command : Command} (hleaf : item.leaf? last = some command) :
    command.WellFormed ∧ command.inner = [] := by
  unfold Item.leaf? at hleaf
  split at hleaf <;> cases hleaf
  · refine ⟨⟨trivial, List.forall_mem_cons.2 ⟨h.2, fun name hname => ?_⟩⟩, rfl⟩
    exact not_return_orElse h.1 hlast name (Option.mem_toList.1 hname)
  · exact h _ rfl
  · exact h _ rfl

theorem Item.WellFormed.node (h : item.WellFormed) {number : Nat} {header : Header}
    {body : List Entry} (hheader : item.header? inMenu = some header) :
    (Entry.node number header body).WellFormed inMenu := by
  unfold Item.header? at hheader
  split at hheader
  · cases hheader
    have hcommand := (h _ rfl).1
    cases header with
    | choice prompt => exact hcommand.form.elim
    | _ => exact hcommand
  · split at hheader <;> cases hheader
    have hprompt := (h _ rfl).1.texts
    exact ⟨‹_›, (List.forall_mem_cons.1 hprompt).1⟩
  · cases hheader

theorem wellFormed_of_mem_nest (hitems : ∀ line ∈ lines, line.item.WellFormed)
    (hlast : ∀ name ∈ last, '\r' ∉ name.toList) :
    ∀ entry ∈ nest inMenu last lines, entry.WellFormed inMenu := by
  fun_induction nest inMenu last lines with
  | case1 => simp
  | case2 inMenu last line later header hheader ihbody ihpast =>
    obtain ⟨hline, hlater⟩ := List.forall_mem_cons.1 hitems
    refine List.forall_mem_cons.2 ⟨hline.node hheader, ihpast (fun other hother => ?_) hlast⟩
    exact hlater other (mem_of_mem_pastBody hother)
  | case3 inMenu last line later hheader ih =>
    obtain ⟨hline, hlater⟩ := List.forall_mem_cons.1 hitems
    refine List.forall_mem_append.2 ⟨fun entry hentry => ?_, ih hlater (hline.speaker hlast)⟩
    obtain ⟨command, hcommand, rfl⟩ := List.mem_map.1 hentry
    exact hline.leaf hlast (Option.mem_toList.1 hcommand)

theorem wellFormed_of_stands (hitems : ∀ line ∈ lines, line.item.WellFormed)
    {around : Option Header} {entry : Entry}
    (h : Entry.Stands (nest false none lines) around entry) :
    entry.WellFormed (around == some .menu) := by
  cases h with
  | outermost hmem => exact wellFormed_of_mem_nest hitems (by simp) entry hmem
  | inside hnode hmem =>
    obtain ⟨before, line, later, rfl, -, rfl⟩ := exists_line_of_mem_preorder_nest hnode
    refine wellFormed_of_mem_nest (fun other hother => hitems other ?_) (by simp) entry hmem
    exact List.mem_append_right _ (List.mem_cons_of_mem _ (mem_of_mem_bodyOf hother))

theorem Entry.WellFormed.toCommand {entries : List Entry} {entry : Entry}
    (hentries : ∀ around entry, Stands entries around entry →
      entry.WellFormed (around == some .menu))
    (hentry : entry ∈ preorder entries) (h : entry.WellFormed false) :
    entry.toCommand.WellFormed := by
  match entry with
  | .leaf line command => exact h.1
  | .node line (.choice prompt) body => exact absurd h.1 Bool.false_ne_true
  | .node line .menu body =>
    refine ⟨trivial, fun s hs => ?_⟩
    obtain ⟨choice, hchoice, rfl⟩ := List.mem_map.1 hs
    obtain ⟨number, prompt, inside, hnode, rfl⟩ := mem_toChoices hchoice
    exact (hentries _ _ (.inside hentry hnode)).2
  | .node line (.label name) body => exact ⟨h.form, h.texts⟩
  | .node line (.ifBranch condition) body => exact ⟨h.form, h.texts⟩
  | .node line (.elifBranch condition) body => exact ⟨h.form, h.texts⟩
  | .node line .elseBranch body => exact ⟨h.form, h.texts⟩

end Entries

/-! ## Scripts -/

section Scripts

variable {tabWidth : UInt64} {text : String} {script : List Command}

theorem wellFormed_of_readOutline {entries : List Entry}
    (h : readOutline tabWidth text = .ok entries) {around : Option Header} {entry : Entry}
    (hstands : Entry.Stands entries around entry) : entry.WellFormed (around == some .menu) := by
  obtain ⟨items, hitems, rfl⟩ := readOutline_eq_ok h
  have hcontent := @not_return_structuralFrom tabWidth none 1 _
    (@not_return_of_mem_lines text.toList) nofun
  refine wellFormed_of_stands (fun placed hplaced => ?_) hstands
  obtain ⟨line, hline, hitem⟩ := exists_line_of_mem_placed hitems hplaced
  exact wellFormed_of_item hitem (hcontent line hline)

theorem exists_stands_of_readOutline {entries : List Entry}
    (h : readOutline tabWidth text = .ok entries) {command : Command}
    (hcommand : Within (Entry.toCommands entries) command) :
    ∃ around entry, Entry.Stands entries around entry ∧ around ≠ some .menu ∧
      command = entry.toCommand := by
  refine Entry.exists_stands_of_within (fun line leaf hmem => ?_) hcommand
  obtain ⟨around, hstands⟩ := exists_stands_of_mem_preorder hmem
  exact (wellFormed_of_readOutline h hstands).2

/-- The commands of a script that is read are well formed, at any depth. -/
theorem wellFormed_of_within (h : read tabWidth text = .ok script) {command : Command}
    (hcommand : Within script command) : command.WellFormed := by
  obtain ⟨entries, hentries, rfl⟩ := exists_of_map_eq_ok h
  obtain ⟨around, entry, hstands, hmenu, rfl⟩ := exists_stands_of_readOutline hentries hcommand
  have hentry := wellFormed_of_readOutline hentries hstands
  rw [beq_eq_false_iff_ne.2 hmenu] at hentry
  exact hentry.toCommand (fun _ _ => wellFormed_of_readOutline hentries) hstands.mem_preorder

/-- A script that is read has choices in menus alone and no command of another language. At any
depth, images are not empty, durations are finite, labels have no colon, a definition that is a call
is what its value is read as, and no text has a carriage return. -/
theorem commands_of_read (h : read tabWidth text = .ok script) :
    ∀ command, Within script command →
      (∀ choice, command ≠ .strayChoice choice) ∧ command ≠ .unsupported ∧
      (∀ image position transition, command = .showImage image position transition →
        image ≠ "") ∧
      (∀ image transition, command = .hideImage image transition → image ≠ "") ∧
      (∀ n, command = .pause (some n) ∨ (∃ file, command = .playMusic file (some n)) ∨
        command = .stopMusic (some n) → n.isFinite = true) ∧
      (∀ name body, command = .label name body → ':' ∉ name.toList) ∧
      (∀ name value call, command = .define name value (some call) →
        Call.looksLikeCall value = true ∧ Call.read value = .ok call) ∧
      ∀ s ∈ command.texts, '\r' ∉ s.toList := by
  intro command hcommand
  obtain ⟨hform, htexts⟩ := wellFormed_of_within h hcommand
  refine ⟨?_, ?_, ?_, ?_, ?_, ?_, ?_, htexts⟩
  · rintro choice rfl
    exact hform
  · rintro rfl
    exact hform
  · rintro image position transition rfl
    exact hform
  · rintro image transition rfl
    exact hform
  · rintro n (rfl | ⟨file, rfl⟩ | rfl) <;> exact hform n rfl
  · rintro name body rfl
    exact hform
  · rintro name value call rfl
    exact hform

def arrival : String :=
  "define e = Character('Eileen')\r\nmenu:\r\n  'Wait':\r\n    pause 2\r\n    show eileen"

theorem commands_of_read_arrival :
    ∃ script, read defaultTabWidth arrival = .ok script ∧ script.length = 2 ∧
      ∀ command, Within script command →
        (∀ choice, command ≠ .strayChoice choice) ∧ command ≠ .unsupported ∧
        (∀ image position transition, command = .showImage image position transition →
          image ≠ "") ∧
        (∀ image transition, command = .hideImage image transition → image ≠ "") ∧
        (∀ n, command = .pause (some n) ∨ (∃ file, command = .playMusic file (some n)) ∨
          command = .stopMusic (some n) → n.isFinite = true) ∧
        (∀ name body, command = .label name body → ':' ∉ name.toList) ∧
        (∀ name value call, command = .define name value (some call) →
          Call.looksLikeCall value = true ∧ Call.read value = .ok call) ∧
        ∀ s ∈ command.texts, '\r' ∉ s.toList := by
  have hlength : (read defaultTabWidth arrival).toOption.map List.length = some 2 := by
    decide +kernel
  cases hread : read defaultTabWidth arrival with
  | error error =>
    rw [hread] at hlength
    cases hlength
  | ok script =>
    rw [hread] at hlength
    exact ⟨script, rfl, Option.some.inj hlength, commands_of_read hread⟩

end Scripts

end StoryScript.Script
