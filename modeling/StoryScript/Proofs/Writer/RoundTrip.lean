import StoryScript.Proofs.Nesting.Draft
import StoryScript.Proofs.Writer.Lines

/-! # Reading what was written

The lines of a command that is written come back as that command, whatever is written after it: its
body is indented one level more than its header, and what follows is not. So a script is read as
the commands that it was written from.
-/

namespace StoryScript.Script

open Command Entry Text

/-- Lines that are placed as a script is written. -/
def Follows (lines : List Placed) (script : List Written) : Prop :=
  lines.map (fun line => (line.indent.toInt, line.item)) =
    script.map fun written => ((4 * written.level : Int), .statement written.statement)

/-- A script that begins at a level and never leaves it. -/
structure StartsAt (level : Nat) (script : List Written) : Prop where
  first : ∀ written ∈ script.head?, written.level = level
  inside : ∀ written ∈ script, level ≤ written.level

section Levels

variable {level : Nat} {written : Written} {script later : List Written}

theorem startsAt_nil : StartsAt level [] := ⟨nofun, nofun⟩

theorem startsAt_cons (hfirst : written.level = level)
    (hinside : ∀ other ∈ script, level ≤ other.level) : StartsAt level (written :: script) := by
  refine ⟨?_, fun other hother => ?_⟩
  · rintro _ ⟨⟩
    exact hfirst
  · rcases List.mem_cons.1 hother with rfl | hother
    · exact Nat.le_of_eq hfirst.symm
    · exact hinside other hother

theorem startsAt_append (hscript : StartsAt level script) (hlater : StartsAt level later) :
    StartsAt level (script ++ later) := by
  cases script with
  | nil => exact hlater
  | cons written script =>
    refine startsAt_cons (hscript.first written rfl) fun other hother => ?_
    rcases List.mem_append.1 hother with h | h
    · exact hscript.inside other (List.mem_cons_of_mem _ h)
    · exact hlater.inside other h

theorem startsAt_header (statement : Statement) (h : StartsAt (level + 1) script) :
    StartsAt level (⟨level, statement⟩ :: script) :=
  startsAt_cons rfl fun other hother => Nat.le_of_succ_le (h.inside other hother)

mutual

theorem startsAt_written (level : Nat) (command : Command) :
    StartsAt level (command.written level) := by
  cases command with
  | label name body => exact startsAt_header _ (startsAt_writtenOf (level + 1) body)
  | menu choices => exact startsAt_header _ (startsAt_writtenOfChoices (level + 1) choices)
  | ifBranch condition body => exact startsAt_header _ (startsAt_writtenOf (level + 1) body)
  | elifBranch condition body => exact startsAt_header _ (startsAt_writtenOf (level + 1) body)
  | elseBranch body => exact startsAt_header _ (startsAt_writtenOf (level + 1) body)
  | _ => exact startsAt_cons rfl nofun

theorem startsAt_writtenOf (level : Nat) (commands : List Command) :
    StartsAt level (writtenOf level commands) := by
  cases commands with
  | nil => exact startsAt_nil
  | cons command commands =>
    exact startsAt_append (startsAt_written level command) (startsAt_writtenOf level commands)

theorem startsAt_writtenOfChoices (level : Nat) (choices : List (Choice Command)) :
    StartsAt level (writtenOfChoices level choices) := by
  cases choices with
  | nil => exact startsAt_nil
  | cons choice choices =>
    obtain ⟨prompt, body⟩ := choice
    exact startsAt_append (startsAt_header _ (startsAt_writtenOf (level + 1) body))
      (startsAt_writtenOfChoices level choices)

end

end Levels

section Follows

variable {level : Nat} {line : Placed} {lines inner later : List Placed}
  {script first second : List Written}

theorem follows_append (h : Follows lines (first ++ second)) :
    ∃ inner later, lines = inner ++ later ∧ Follows inner first ∧ Follows later second := by
  rw [Follows, List.map_append] at h
  obtain ⟨inner, later, rfl, hinner, hlater⟩ := List.map_eq_append_iff.1 h
  exact ⟨inner, later, rfl, hinner, hlater⟩

theorem follows_cons {statement : Statement}
    (h : Follows lines (⟨level, statement⟩ :: script)) :
    ∃ line later, lines = line :: later ∧ line.indent.toInt = 4 * level ∧
      line.item = .statement statement ∧ Follows later script := by
  obtain ⟨line, later, rfl, hline, hlater⟩ := List.map_eq_cons_iff.1 h
  obtain ⟨hindent, hitem⟩ := Prod.mk.inj hline
  exact ⟨line, later, rfl, hindent, hitem, hlater⟩

theorem le_indent_of_follows (h : Follows lines script) (hscript : StartsAt level script) :
    ∀ line ∈ lines, (4 * level : Int) ≤ line.indent.toInt := by
  intro line hline
  have hmem : (line.indent.toInt, line.item) ∈
      script.map fun written => ((4 * written.level : Int), Item.statement written.statement) := by
    rw [← h]
    exact List.mem_map_of_mem hline
  obtain ⟨written, hwritten, heq⟩ := List.mem_map.1 hmem
  have hlevel := hscript.inside written hwritten
  have hindent : (4 * written.level : Int) = line.indent.toInt := (Prod.mk.inj heq).1
  omega

theorem indent_head_of_follows (h : Follows lines script) (hscript : StartsAt level script) :
    ∀ line ∈ lines.head?, line.indent.toInt = 4 * level := by
  intro line hline
  cases script with
  | nil =>
    rw [List.map_eq_nil_iff.1 h] at hline
    cases hline
  | cons written script =>
    obtain ⟨first, later, rfl, hindent, -⟩ := follows_cons h
    cases hline
    rw [hindent, hscript.first written rfl]

/-- What is written a level deeper is the body of the header before it. -/
theorem nest_header_append {inMenu : Bool} {last : Option String} {header : Header}
    (hheader : line.item.header? inMenu = some header) (hline : line.indent.toInt = 4 * level)
    (hinner : Follows inner script) (hscript : StartsAt (level + 1) script)
    (hlater : ∀ line ∈ later.head?, line.indent.toInt = 4 * level) :
    nest inMenu last (line :: (inner ++ later)) =
      .node line.number header (nest (header == .menu) none inner) :: nest inMenu last later := by
  have hclose : ∀ other ∈ later.head?, other.indent ≤ line.indent := by
    intro other hother
    exact Int64.le_iff_toInt_le.2 (Int.le_of_eq ((hlater other hother).trans hline.symm))
  have hbody : bodyOf line.indent inner = inner := by
    cases inner with
    | nil => rfl
    | cons first rest =>
      have hfirst := indent_head_of_follows hinner hscript first rfl
      have hdeeper : line.indent < first.indent := by
        rw [Int64.lt_iff_toInt_lt, hline, hfirst]
        omega
      rw [bodyOf, if_pos hdeeper, List.takeWhile_eq_self_iff]
      intro other hother
      have hother := le_indent_of_follows hinner hscript other hother
      rw [decide_eq_true_iff, Int64.le_iff_toInt_le, hfirst]
      omega
  have hpast : pastBody line.indent inner = [] := by
    have hsplit := bodyOf_append_pastBody line.indent inner
    rw [hbody] at hsplit
    exact List.append_right_eq_self.1 hsplit
  rw [nest_of_header _ hheader, bodyOf_append hclose, pastBody_append hclose, hbody, hpast,
    List.nil_append]

end Follows

section Trees

section Heads

variable {level : Nat} {lines later : List Placed}

theorem toCommands_nest_simple {command : Command} (last : Option String)
    (h : Follows lines [⟨level, .simple command⟩]) :
    ∃ next, toCommands (nest false last (lines ++ later)) =
      command :: toCommands (nest false next later) := by
  obtain ⟨line, rest, rfl, -, hitem, hrest⟩ := follows_cons h
  rw [List.map_eq_nil_iff.1 hrest, List.singleton_append,
    nest_of_leaf later (by rw [hitem]; rfl), hitem]
  exact ⟨_, rfl⟩

theorem toCommands_nest_header {header : Header} {script : List Written} {command : Command}
    (last : Option String) (hscript : StartsAt (level + 1) script)
    (h : Follows lines (⟨level, .header header⟩ :: script))
    (hlater : ∀ line ∈ later.head?, line.indent.toInt = 4 * level)
    (hcommand : ∀ number inner, Follows inner script →
      (Entry.node number header (nest (header == .menu) none inner)).toCommand = command) :
    ∃ next, toCommands (nest false last (lines ++ later)) =
      command :: toCommands (nest false next later) := by
  obtain ⟨line, inner, rfl, hindent, hitem, hinner⟩ := follows_cons h
  refine ⟨last, ?_⟩
  rw [List.cons_append,
    nest_header_append (by rw [hitem]; rfl) hindent hinner hscript hlater, toCommands,
    hcommand _ _ hinner]

end Heads

mutual

/-- A command that is written comes back in front of what is written after it. -/
theorem toCommands_nest_written (command : Command) {level : Nat} {lines later : List Placed}
    (last : Option String)
    (hwritable : ∀ written ∈ command.written level, written.statement.IsWritable)
    (h : Follows lines (command.written level))
    (hlater : ∀ line ∈ later.head?, line.indent.toInt = 4 * level) :
    ∃ next, toCommands (nest false last (lines ++ later)) =
      command :: toCommands (nest false next later) := by
  cases command with
  | label name body =>
    refine toCommands_nest_header last (startsAt_writtenOf _ body) h hlater fun _ inner hinner => ?_
    have hbody := fun written hmem => hwritable written (List.mem_cons_of_mem _ hmem)
    exact congrArg _ (toCommands_nest_writtenOf body none hbody hinner)
  | menu choices =>
    refine toCommands_nest_header last (startsAt_writtenOfChoices _ choices) h hlater
      fun _ inner hinner => ?_
    have hbody := fun written hmem => hwritable written (List.mem_cons_of_mem _ hmem)
    exact congrArg _ (toChoices_nest_writtenOfChoices choices none hbody hinner)
  | strayChoice choice => exact (hwritable _ List.mem_cons_self).elim
  | ifBranch condition body =>
    refine toCommands_nest_header last (startsAt_writtenOf _ body) h hlater fun _ inner hinner => ?_
    have hbody := fun written hmem => hwritable written (List.mem_cons_of_mem _ hmem)
    exact congrArg _ (toCommands_nest_writtenOf body none hbody hinner)
  | elifBranch condition body =>
    refine toCommands_nest_header last (startsAt_writtenOf _ body) h hlater fun _ inner hinner => ?_
    have hbody := fun written hmem => hwritable written (List.mem_cons_of_mem _ hmem)
    exact congrArg _ (toCommands_nest_writtenOf body none hbody hinner)
  | elseBranch body =>
    refine toCommands_nest_header last (startsAt_writtenOf _ body) h hlater fun _ inner hinner => ?_
    have hbody := fun written hmem => hwritable written (List.mem_cons_of_mem _ hmem)
    exact congrArg _ (toCommands_nest_writtenOf body none hbody hinner)
  | _ => exact toCommands_nest_simple last h

/-- Commands that are written come back. -/
theorem toCommands_nest_writtenOf (commands : List Command) {level : Nat} {lines : List Placed}
    (last : Option String)
    (hwritable : ∀ written ∈ writtenOf level commands, written.statement.IsWritable)
    (h : Follows lines (writtenOf level commands)) :
    toCommands (nest false last lines) = commands := by
  cases commands with
  | nil =>
    rw [List.map_eq_nil_iff.1 h, nest_nil]
    rfl
  | cons command commands =>
    obtain ⟨inner, later, rfl, hinner, hlater⟩ := follows_append h
    obtain ⟨next, hfirst⟩ := toCommands_nest_written command last
      (fun written hmem => hwritable written (List.mem_append_left _ hmem)) hinner
      (indent_head_of_follows hlater (startsAt_writtenOf level commands))
    rw [hfirst, toCommands_nest_writtenOf commands next
      (fun written hmem => hwritable written (List.mem_append_right _ hmem)) hlater]

theorem toChoices_nest_writtenOfChoices (choices : List (Choice Command)) {level : Nat}
    {lines : List Placed} (last : Option String)
    (hwritable : ∀ written ∈ writtenOfChoices level choices, written.statement.IsWritable)
    (h : Follows lines (writtenOfChoices level choices)) :
    toChoices (nest true last lines) = choices := by
  cases choices with
  | nil =>
    rw [List.map_eq_nil_iff.1 h, nest_nil]
    rfl
  | cons choice choices =>
    obtain ⟨prompt, body⟩ := choice
    obtain ⟨inner, later, rfl, hinner, hlater⟩ := follows_append h
    obtain ⟨line, inner, rfl, hindent, hitem, hinner⟩ := follows_cons hinner
    rw [List.cons_append, nest_header_append (by rw [hitem]; rfl) hindent hinner
      (startsAt_writtenOf _ body)
      (indent_head_of_follows hlater (startsAt_writtenOfChoices level choices)), toChoices,
      toChoices_nest_writtenOfChoices choices last
        (fun written hmem => hwritable written (List.mem_append_right _ hmem)) hlater]
    have hbody := toCommands_nest_writtenOf body none (fun written hmem => hwritable written
      (List.mem_append_left _ (List.mem_cons_of_mem _ hmem))) hinner
    rw [show (Header.choice prompt == Header.menu) = false from rfl, hbody]

end

end Trees

theorem follows_place {items : List (Line × Item)} {script : List Written}
    (hitems : items.map (fun found => (found.1.indent.toInt, found.2)) =
      script.map fun written => ((4 * written.level : Int), .statement written.statement))
    (hscript : StartsAt 0 script) : Follows (items.map (place (origin items))) script := by
  have horigin : origin items = 0 := by
    cases items with
    | nil => rfl
    | cons first items =>
      obtain ⟨written, script, rfl, hfirst, -⟩ := List.map_eq_cons_iff.1 hitems.symm
      have hlevel := hscript.first written rfl
      rw [hlevel] at hfirst
      exact Int64.toInt_inj.1 (Prod.mk.inj hfirst).1.symm
  rw [Follows, List.map_map, ← hitems, horigin]
  refine List.map_congr_left fun found _ => ?_
  rw [Function.comp_apply, place, Int64.sub_zero]

theorem level_lt_of_length_write {commands : List Command} {written : Written}
    (h : (write commands).length < 2 ^ 63) (hwritten : written ∈ writtenOf 0 commands) :
    4 * written.level < 2 ^ 63 := by
  have hwithin : written.line ++ ['\n'] <:+:
      (writtenOf 0 commands).flatMap fun written => written.line ++ ['\n'] :=
    List.infix_of_mem_flatten (List.mem_map_of_mem hwritten)
  have hlength := hwithin.length_le
  rw [write, String.length_ofList] at h
  rw [List.length_append, Written.line, List.length_append, List.length_replicate] at hlength
  omega

def chapter : List Command :=
  [.define "eve" "Character(\"Eve\")" (some ⟨"Character", [⟨none, .text "Eve"⟩]⟩),
    .define "visits" "1" none,
    .label "start" [
      .scene "old library" (some "slow fade"),
      .dialogue (some "eve") "Say \"come in\"\nor leave.",
      .menu [
        ⟨"Come in", [
          .ifBranch "visits > 1" [.jump "end"],
          .elseBranch [.pause none]]⟩,
        ⟨"Leave", []⟩]],
    .label "end" [.playMusic "bells.ogg" none, .showImage "eve happy" (some "left") none, .finish]]

theorem writable_chapter : Writable chapter where
  statements := List.forall_iff_forall_mem.1
    ⟨⟨by decide +kernel, by decide, by decide +kernel, by decide +kernel, rfl⟩,
      ⟨by decide, by decide +kernel, by decide +kernel⟩, ⟨by decide +kernel, by decide⟩,
      ⟨by decide +kernel, by decide +kernel⟩, ⟨by decide +kernel, by decide⟩, trivial,
      (by decide : '\r' ∉ "Come in".toList), ⟨by decide +kernel, by decide⟩,
      ⟨by decide, by decide +kernel⟩, trivial, nofun,
      (by decide : '\r' ∉ "Leave".toList), ⟨by decide +kernel, by decide⟩, ⟨by decide, nofun⟩,
      ⟨by decide +kernel, by decide +kernel, nofun⟩, trivial⟩
  unquoted := by decide +kernel

/-- A script that is written from commands is read as these commands. The script has to be a text
whose length is a word with a sign. -/
theorem read_write {tabWidth : UInt64} {commands : List Command} (h : Writable commands)
    (hlength : (write commands).length < 2 ^ 63) :
    read tabWidth (write commands) = .ok commands := by
  obtain ⟨items, hstructural, hread, hitems⟩ := @exists_items tabWidth _ h.statements h.unquoted
    (fun written hwritten => level_lt_of_length_write hlength hwritten) 1
  have hlines : structural tabWidth (write commands).toList = (items.map (·.1), none) := by
    rw [structural, write, String.toList_ofList, lines_flatMap_line h.statements, hstructural]
  have hfollows := follows_place hitems (startsAt_writtenOf 0 commands)
  have houtline : readOutline tabWidth (write commands) = .ok (outline items) := by
    simp only [readOutline, hlines, hread]
  rw [read, houtline, outline_eq_nest]
  exact congrArg _ (toCommands_nest_writtenOf commands none h.statements hfollows)

theorem read_write_chapter :
    Writable chapter ∧ (write chapter).length < 2 ^ 63 ∧
      read defaultTabWidth (write chapter) = .ok chapter :=
  have hlength : (write chapter).length < 2 ^ 63 := by
    rw [write, String.length_ofList]
    decide +kernel
  ⟨writable_chapter, hlength, read_write writable_chapter hlength⟩

end StoryScript.Script
