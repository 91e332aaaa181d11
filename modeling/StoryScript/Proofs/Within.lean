import StoryScript.Proofs.Document.Command
import StoryScript.Proofs.Nesting.Tree

/-! # The commands inside a script

A command is inside a script if it is one of its commands or stands in a body of one that is. Inside
the commands of an outline stand the commands of its entries, but no entry that stands directly in a
menu has a command of its own there.
-/

namespace StoryScript

/-- A command of a script or inside one of its commands. -/
inductive Within (script : List Command) : Command → Prop
  | here {command : Command} (h : command ∈ script) : Within script command
  | inside {outer command : Command} (houter : Within script outer)
      (h : command ∈ outer.inner) : Within script command

namespace Script

namespace Entry

variable {entries body : List Entry} {entry found : Entry} {number : Nat} {header : Header}

theorem mem_withInner_self (entry : Entry) : entry ∈ entry.withInner := by
  cases entry <;> exact List.mem_cons_self

theorem mem_preorder_of_mem (h : entry ∈ entries) : entry ∈ preorder entries := by
  induction entries with
  | nil => cases h
  | cons first entries ih =>
    rw [preorder, List.mem_append]
    rcases List.mem_cons.1 h with rfl | h
    · exact .inl (mem_withInner_self entry)
    · exact .inr (ih h)

mutual

theorem mem_withInner_trans {entry : Entry} (h : node number header body ∈ entry.withInner)
    (hfound : found ∈ preorder body) : found ∈ entry.withInner := by
  cases entry with
  | leaf line command =>
    rw [withInner, List.mem_singleton] at h
    cases h
  | node line outer entries =>
    rw [withInner] at h ⊢
    rcases List.mem_cons.1 h with h | h
    · cases h
      exact List.mem_cons_of_mem _ hfound
    · exact List.mem_cons_of_mem _ (mem_preorder_trans h hfound)

theorem mem_preorder_trans {entries : List Entry}
    (h : node number header body ∈ preorder entries) (hfound : found ∈ preorder body) :
    found ∈ preorder entries := by
  cases entries with
  | nil => cases h
  | cons first entries =>
    rw [preorder, List.mem_append] at h ⊢
    rcases h with h | h
    · exact .inl (mem_withInner_trans h hfound)
    · exact .inr (mem_preorder_trans h hfound)

end

theorem Stands.mem_preorder {around : Option Header} (h : Stands entries around entry) :
    entry ∈ preorder entries := by
  cases h with
  | outermost hmem => exact mem_preorder_of_mem hmem
  | inside hnode hmem => exact mem_preorder_trans hnode (mem_preorder_of_mem hmem)

theorem mem_toCommands {command : Command} (h : command ∈ toCommands entries) :
    ∃ entry ∈ entries, command = entry.toCommand := by
  induction entries with
  | nil => cases h
  | cons first entries ih =>
    rcases List.mem_cons.1 h with rfl | h
    · exact ⟨first, List.mem_cons_self, rfl⟩
    · obtain ⟨entry, hentry, heq⟩ := ih h
      exact ⟨entry, List.mem_cons_of_mem _ hentry, heq⟩

theorem mem_toChoices {choice : Choice Command} (h : choice ∈ toChoices entries) :
    ∃ line prompt body, node line (.choice prompt) body ∈ entries ∧
      choice = ⟨prompt, toCommands body⟩ := by
  induction entries with
  | nil => cases h
  | cons first entries ih =>
    have hlater : choice ∈ toChoices entries → ∃ line prompt body,
        node line (.choice prompt) body ∈ first :: entries ∧
          choice = ⟨prompt, toCommands body⟩ := by
      intro h
      obtain ⟨line, prompt, body, hnode, heq⟩ := ih h
      exact ⟨line, prompt, body, List.mem_cons_of_mem _ hnode, heq⟩
    cases hchoice : first.isChoice with
    | false =>
      rw [toChoices_of_not_isChoice hchoice] at h
      exact hlater h
    | true =>
      obtain ⟨line, prompt, body, rfl⟩ := exists_of_isChoice hchoice
      rcases List.mem_cons.1 h with rfl | h
      · exact ⟨line, prompt, body, List.mem_cons_self, rfl⟩
      · exact hlater h

/-- The commands directly inside that of an entry are those of entries in its body, or in the body
of a choice there. -/
theorem mem_inner_toCommand {line : Nat} {command : Command}
    (h : command ∈ (node line header body).toCommand.inner) :
    (∃ entry ∈ body, command = entry.toCommand ∧ header ≠ .menu) ∨
      ∃ number prompt inside, node number (.choice prompt) inside ∈ body ∧
        ∃ entry ∈ inside, command = entry.toCommand := by
  cases header with
  | menu =>
    obtain ⟨choice, hchoice, hcommand⟩ := List.mem_flatMap.1 h
    obtain ⟨number, prompt, inside, hnode, rfl⟩ := mem_toChoices hchoice
    exact .inr ⟨number, prompt, inside, hnode, mem_toCommands hcommand⟩
  | label name =>
    obtain ⟨entry, hentry, heq⟩ := mem_toCommands h
    exact .inl ⟨entry, hentry, heq, nofun⟩
  | choice prompt =>
    obtain ⟨entry, hentry, heq⟩ := mem_toCommands h
    exact .inl ⟨entry, hentry, heq, nofun⟩
  | ifBranch condition =>
    obtain ⟨entry, hentry, heq⟩ := mem_toCommands h
    exact .inl ⟨entry, hentry, heq, nofun⟩
  | elifBranch condition =>
    obtain ⟨entry, hentry, heq⟩ := mem_toCommands h
    exact .inl ⟨entry, hentry, heq, nofun⟩
  | elseBranch =>
    obtain ⟨entry, hentry, heq⟩ := mem_toCommands h
    exact .inl ⟨entry, hentry, heq, nofun⟩

/-- A command inside those of an outline is that of an entry that does not stand directly in a
menu. -/
theorem exists_stands_of_within {command : Command}
    (hleaf : ∀ line command, leaf line command ∈ preorder entries → command.inner = [])
    (h : Within (toCommands entries) command) :
    ∃ around entry, Stands entries around entry ∧ around ≠ some .menu ∧
      command = entry.toCommand := by
  induction h with
  | here h =>
    obtain ⟨entry, hentry, heq⟩ := mem_toCommands h
    exact ⟨none, entry, .outermost hentry, by simp, heq⟩
  | @inside outer command houter h ih =>
    obtain ⟨around, entry, hstands, -, rfl⟩ := ih
    have hmem := hstands.mem_preorder
    cases entry with
    | leaf line outer =>
      have hinner := hleaf line outer hmem
      rw [toCommand, hinner] at h
      cases h
    | node line header body =>
      rcases mem_inner_toCommand h with ⟨entry, hentry, heq, hmenu⟩ | ⟨number, prompt, inside,
        hnode, entry, hentry, heq⟩
      · exact ⟨some header, entry, .inside hmem hentry, fun h => hmenu (Option.some.inj h), heq⟩
      · have hchoice := mem_preorder_trans hmem (mem_preorder_of_mem hnode)
        exact ⟨some (.choice prompt), entry, .inside hchoice hentry, by simp, heq⟩

end Entry

end Script

end StoryScript
