import StoryScript.Proofs.Lines.Statements
import StoryScript.Proofs.Nesting.Script

/-! # Blocks in other words

What stands inside a block is its text and nothing else. If the lines of a block are replaced by as
many others that do not close it, the script is read to the same commands, apart from the text of
one line of speech, or is rejected with the same error.
-/

namespace StoryScript

/-- Two results are the same error, or values in a relation. -/
inductive Agree {α β ε : Type} (R : α → β → Prop) : Except ε α → Except ε β → Prop
  | error (e : ε) : Agree R (.error e) (.error e)
  | ok {a : α} {b : β} (h : R a b) : Agree R (.ok a) (.ok b)

theorem Agree.imp {α β ε : Type} {R S : α → β → Prop} {x : Except ε α} {y : Except ε β}
    (h : Agree R x y) (himp : ∀ a b, R a b → S a b) : Agree S x y := by
  cases h with
  | error e => exact .error e
  | ok h => exact .ok (himp _ _ h)

/-- Two lists are the same but for one member. -/
inductive Replaced {α : Type} (a b : α) : List α → List α → Prop
  | here (l : List α) : Replaced a b (a :: l) (b :: l)
  | later {l l' : List α} (c : α) (h : Replaced a b l l') : Replaced a b (c :: l) (c :: l')

namespace Replaced

variable {α β : Type} {a b : α} {l l' : List α}

theorem append_cons (before after : List α) :
    Replaced a b (before ++ a :: after) (before ++ b :: after) := by
  induction before with
  | nil => exact .here after
  | cons c before ih => exact .later c ih

theorem map (f : α → β) (h : Replaced a b l l') : Replaced (f a) (f b) (l.map f) (l'.map f) := by
  induction h with
  | here l => exact .here _
  | later c _ ih => exact .later _ ih

theorem span {p : α → Bool} (hp : p a = p b) (h : Replaced a b l l') :
    Replaced a b (l.takeWhile p) (l'.takeWhile p) ∧ l.dropWhile p = l'.dropWhile p ∨
      l.takeWhile p = l'.takeWhile p ∧ Replaced a b (l.dropWhile p) (l'.dropWhile p) := by
  induction h with
  | here l =>
    rw [List.takeWhile_cons, List.takeWhile_cons, List.dropWhile_cons, List.dropWhile_cons, ← hp]
    split
    · exact .inl ⟨.here _, rfl⟩
    · exact .inr ⟨rfl, .here _⟩
  | later c h ih =>
    rw [List.takeWhile_cons, List.takeWhile_cons, List.dropWhile_cons, List.dropWhile_cons]
    split
    · rcases ih with ⟨htake, hdrop⟩ | ⟨htake, hdrop⟩
      · exact .inl ⟨.later c htake, hdrop⟩
      · exact .inr ⟨by rw [htake], hdrop⟩
    · exact .inr ⟨rfl, .later c h⟩

end Replaced

namespace Script

open Text

/-! ## The lines of a block -/

/-- The text of a block, from what follows the delimiter on its first line, the lines that go on
with it and what precedes the delimiter on its last line. -/
def blockText (first : List Char) (inner : List (List Char)) (last : List Char) : List Char :=
  trim (['\n'].intercalate (trim first :: (inner ++ [last])))

/-- A line leaves a block open: its delimiter and what follows it on the line. -/
structure LeavesOpen (line delimiter first : List Char) : Prop where
  structural : IsStructural (trim line)
  cut : ∃ before, cutAtDelimiter? (trim line) = some (delimiter, before, first)
  unclosed : ¬delimiter <:+: first

section Blocks

variable {tabWidth : UInt64} {number : Nat} {block : OpenBlock} {inner after : List (List Char)}
  {line delimiter first closing last rest : List Char}

theorem LeavesOpen.exists_openLine_eq (h : LeavesOpen line delimiter first) (tabWidth : UInt64) :
    ∃ speaker, ∀ number, openLine tabWidth number line =
      .unfinished ⟨number, measureIndent tabWidth line, speaker, delimiter, trim line,
        [trim first]⟩ := by
  obtain ⟨hstructural, ⟨before, hcut⟩, hunclosed⟩ := h
  have hskip : ((trim line).isEmpty || (trim line).head? == some '#') = false := by
    simpa [IsStructural] using hstructural
  refine ⟨nonBlank? before, fun number => ?_⟩
  simp only [openLine, hskip, hcut, cut?_eq_none hunclosed, Bool.false_eq_true, ite_false]

theorem structuralFrom_inner (hinner : ∀ line ∈ inner, ¬block.delimiter <:+: line) :
    structuralFrom tabWidth (some block) number inner =
      ([], some { block with collected := inner.reverse ++ block.collected }) := by
  induction inner generalizing block number with
  | nil => rfl
  | cons line inner ih =>
    obtain ⟨hline, hlater⟩ := List.forall_mem_cons.1 hinner
    have hextend := @ih (number + 1) (block.extend line) hlater
    simp only [structuralFrom, cut?_eq_none hline, hextend, List.reverse_cons, List.append_assoc]
    rfl

/-- An open block ends on the first line with its delimiter, and the lines after that are read
without it. -/
theorem structuralFrom_closed (hinner : ∀ line ∈ inner, ¬block.delimiter <:+: line)
    (hlast : cut? block.delimiter closing = some (last, rest)) :
    structuralFrom tabWidth (some block) number (inner ++ closing :: after) =
      (⟨block.number, block.indent, .block block.speaker
          (trim (['\n'].intercalate (block.collected.reverse ++ (inner ++ [last]))))⟩ ::
        (structuralFrom tabWidth none (number + inner.length + 1) after).1,
        (structuralFrom tabWidth none (number + inner.length + 1) after).2) := by
  rw [structuralFrom_append, structuralFrom_inner hinner]
  simp only [structuralFrom, hlast, OpenBlock.close, List.nil_append, List.reverse_cons,
    List.reverse_append, List.reverse_reverse, List.append_assoc]

variable {before : List (List Char)} {opening : List Char} {speaker : Option (List Char)}
  {s : List Char}

/-- The structural lines of a script with a block that is closed. -/
theorem structural_closed (hlines : lines s = before ++ opening :: (inner ++ closing :: after))
    (houtside : openBefore none before before.length = none)
    (hopen : ∀ number, openLine tabWidth number opening =
      .unfinished ⟨number, measureIndent tabWidth opening, speaker, delimiter, trim opening,
        [trim first]⟩)
    (hinner : ∀ line ∈ inner, ¬delimiter <:+: line)
    (hlast : cut? delimiter closing = some (last, rest)) :
    structural tabWidth s =
      ((structuralFrom tabWidth none 1 before).1 ++
          ⟨before.length + 1, measureIndent tabWidth opening,
            .block speaker (blockText first inner last)⟩ ::
          (structuralFrom tabWidth none (before.length + 1 + 1 + inner.length + 1) after).1,
        (structuralFrom tabWidth none (before.length + 1 + 1 + inner.length + 1) after).2) := by
  have hclosed := @structuralFrom_closed tabWidth (before.length + 1 + 1)
    ⟨before.length + 1, measureIndent tabWidth opening, speaker, delimiter, trim opening,
      [trim first]⟩ inner after closing last rest hinner hlast
  rw [structural, hlines, structuralFrom_append, structuralFrom_eq_none houtside,
    Nat.add_comm 1 before.length, structuralFrom]
  simp only [hopen, hclosed]
  rfl

theorem structural_unclosed (hlines : lines s = before ++ opening :: inner)
    (houtside : openBefore none before before.length = none)
    (hopen : ∀ number, openLine tabWidth number opening =
      .unfinished ⟨number, measureIndent tabWidth opening, speaker, delimiter, trim opening,
        [trim first]⟩)
    (hinner : ∀ line ∈ inner, ¬delimiter <:+: line) :
    structural tabWidth s =
      ((structuralFrom tabWidth none 1 before).1,
        some ⟨before.length + 1, measureIndent tabWidth opening, speaker, delimiter, trim opening,
          inner.reverse ++ [trim first]⟩) := by
  have hunclosed := @structuralFrom_inner tabWidth (before.length + 1 + 1)
    ⟨before.length + 1, measureIndent tabWidth opening, speaker, delimiter, trim opening,
      [trim first]⟩ inner hinner
  rw [structural, hlines, structuralFrom_append, structuralFrom_eq_none houtside,
    Nat.add_comm 1 before.length, structuralFrom]
  simp only [hopen, hunclosed, List.append_nil]

end Blocks

/-! ## Entries and commands -/

/-- Entries are the same but for the text of the speech on one line. -/
inductive Entry.Reworded (line : Nat) (old new : String) : List Entry → List Entry → Prop
  | here (speaker : Option String) (later : List Entry) :
      Reworded line old new (.leaf line (.dialogue speaker old) :: later)
        (.leaf line (.dialogue speaker new) :: later)
  | later {entries others : List Entry} (entry : Entry) (h : Reworded line old new entries others) :
      Reworded line old new (entry :: entries) (entry :: others)
  | inside {body body' : List Entry} (number : Nat) (header : Header) (later : List Entry)
      (h : Reworded line old new body body') :
      Reworded line old new (.node number header body :: later) (.node number header body' :: later)

end Script

/-- Commands are the same but for the text of one line of speech, at any depth. -/
inductive Command.Reworded (old new : String) : List Command → List Command → Prop
  | here (speaker : Option String) (later : List Command) :
      Reworded old new (.dialogue speaker old :: later) (.dialogue speaker new :: later)
  | later {commands others : List Command} (command : Command)
      (h : Reworded old new commands others) :
      Reworded old new (command :: commands) (command :: others)
  | label {body body' : List Command} (name : String) (later : List Command)
      (h : Reworded old new body body') :
      Reworded old new (.label name body :: later) (.label name body' :: later)
  | choice {body body' : List Command} (before after : List (Choice Command)) (prompt : String)
      (later : List Command) (h : Reworded old new body body') :
      Reworded old new (.menu (before ++ ⟨prompt, body⟩ :: after) :: later)
        (.menu (before ++ ⟨prompt, body'⟩ :: after) :: later)
  | strayChoice {body body' : List Command} (prompt : String) (later : List Command)
      (h : Reworded old new body body') :
      Reworded old new (.strayChoice ⟨prompt, body⟩ :: later)
        (.strayChoice ⟨prompt, body'⟩ :: later)
  | ifBranch {body body' : List Command} (condition : String) (later : List Command)
      (h : Reworded old new body body') :
      Reworded old new (.ifBranch condition body :: later) (.ifBranch condition body' :: later)
  | elifBranch {body body' : List Command} (condition : String) (later : List Command)
      (h : Reworded old new body body') :
      Reworded old new (.elifBranch condition body :: later) (.elifBranch condition body' :: later)
  | elseBranch {body body' : List Command} (later : List Command)
      (h : Reworded old new body body') :
      Reworded old new (.elseBranch body :: later) (.elseBranch body' :: later)

namespace Script

open Text

section Commands

open Entry

variable {line : Nat} {old new : String} {entries others : List Entry}

/-- Choices are the same but for the text of one line of speech in one of their bodies. -/
def RewordedChoices (old new : String) (choices others : List (Choice Command)) : Prop :=
  ∃ before after prompt body body', choices = before ++ ⟨prompt, body⟩ :: after ∧
    others = before ++ ⟨prompt, body'⟩ :: after ∧ Command.Reworded old new body body'

theorem RewordedChoices.here {body body' : List Command} (prompt : String)
    (later : List (Choice Command)) (h : Command.Reworded old new body body') :
    RewordedChoices old new (⟨prompt, body⟩ :: later) (⟨prompt, body'⟩ :: later) :=
  ⟨[], later, prompt, body, body', rfl, rfl, h⟩

theorem RewordedChoices.later {choices others : List (Choice Command)} (choice : Choice Command)
    (h : RewordedChoices old new choices others) :
    RewordedChoices old new (choice :: choices) (choice :: others) := by
  obtain ⟨before, after, prompt, body, body', rfl, rfl, hbody⟩ := h
  exact ⟨choice :: before, after, prompt, body, body', rfl, rfl, hbody⟩

theorem RewordedChoices.menu {choices others : List (Choice Command)} (later : List Command)
    (h : RewordedChoices old new choices others) :
    Command.Reworded old new (.menu choices :: later) (.menu others :: later) := by
  obtain ⟨before, after, prompt, body, body', rfl, rfl, hbody⟩ := h
  exact .choice before after prompt later hbody

theorem toChoices_cons_cases (entry : Entry) :
    (∃ choice, ∀ entries, toChoices (entry :: entries) = choice :: toChoices entries) ∨
      ∀ entries, toChoices (entry :: entries) = toChoices entries := by
  match entry with
  | .node _ (.choice prompt) body => exact .inl ⟨⟨prompt, toCommands body⟩, fun _ => rfl⟩
  | .leaf _ _ | .node _ (.label _) _ | .node _ .menu _ | .node _ (.ifBranch _) _
  | .node _ (.elifBranch _) _ | .node _ .elseBranch _ => exact .inr fun _ => rfl

/-- A line is visited, and values are related if no menu drops it there. Otherwise they are the
same. -/
def DiffersAt {α : Type} (line : Nat) (visited : List Visit) (R : α → α → Prop) (a b : α) : Prop :=
  ∃ visit ∈ visited, visit.entry.line = line ∧ if visit.dropped then a = b else R a b

theorem DiffersAt.map {α β : Type} {visited more : List Visit} {R : α → α → Prop}
    {S : β → β → Prop} {a b : α} (h : DiffersAt line visited R a b) (f : α → β)
    (hmore : ∀ visit ∈ visited, visit ∈ more) (hf : ∀ a b, R a b → S (f a) (f b)) :
    DiffersAt line more S (f a) (f b) := by
  obtain ⟨visit, hvisit, hline, hdiffers⟩ := h
  refine ⟨visit, hmore visit hvisit, hline, ?_⟩
  cases hdropped : visit.dropped with
  | true =>
    rw [if_pos hdropped] at hdiffers
    exact congrArg f hdiffers
  | false =>
    rw [hdropped] at hdiffers
    exact hf _ _ hdiffers

theorem exists_command_of_body {header : Header} (hmenu : header ≠ .menu) (old new : String) :
    ∃ command : List Command → Command,
      (∀ number body, (node number header body).toCommand = command (toCommands body)) ∧
      ∀ later body body', Command.Reworded old new body body' →
        Command.Reworded old new (command body :: later) (command body' :: later) := by
  cases header with
  | menu => exact absurd rfl hmenu
  | label name => exact ⟨.label name, fun _ _ => rfl, fun later _ _ => .label name later⟩
  | choice prompt =>
    exact ⟨fun body => .strayChoice ⟨prompt, body⟩, fun _ _ => rfl,
      fun later _ _ => .strayChoice prompt later⟩
  | ifBranch condition =>
    exact ⟨.ifBranch condition, fun _ _ => rfl, fun later _ _ => .ifBranch condition later⟩
  | elifBranch condition =>
    exact ⟨.elifBranch condition, fun _ _ => rfl, fun later _ _ => .elifBranch condition later⟩
  | elseBranch => exact ⟨.elseBranch, fun _ _ => rfl, fun later _ _ => .elseBranch later⟩

/-- Every header but a choice is dropped from a menu with its body. -/
theorem visitAll_node_of_not_choice {number depth : Nat} {header : Header} {body later : List Entry}
    (hchoice : (node number header body).isChoice = false) :
    visitAll depth false true (node number header body :: later) =
      (node number header body).visit depth true ++ visitAll depth false true later := by
  rw [visitAll, hchoice]
  rfl

theorem Entry.Reworded.exists_mem_preorder (h : Entry.Reworded line old new entries others) :
    ∃ entry ∈ preorder entries, entry.line = line := by
  induction h with
  | here speaker later => exact ⟨_, List.mem_cons_self, rfl⟩
  | later entry h ih =>
    obtain ⟨found, hfound, hline⟩ := ih
    exact ⟨found, List.mem_append_right _ hfound, hline⟩
  | inside number header later h ih =>
    obtain ⟨found, hfound, hline⟩ := ih
    exact ⟨found, List.mem_append_left _ (List.mem_cons_of_mem _ hfound), hline⟩

theorem Entry.Reworded.differsAt_of_dropped {α : Type}
    (h : Entry.Reworded line old new entries others) (depth : Nat) (inMenu : Bool)
    (R : α → α → Prop) (a : α) : DiffersAt line (visitAll depth true inMenu entries) R a a := by
  obtain ⟨entry, hentry, hline⟩ := h.exists_mem_preorder
  rw [← entry_visitAll depth true inMenu] at hentry
  obtain ⟨visit, hvisit, rfl⟩ := List.mem_map.1 hentry
  exact ⟨visit, hvisit, hline, by rw [if_pos (dropped_of_mem_visitAll hvisit)]⟩

section Header

variable {header : Header} {body body' : List Entry} {number depth : Nat}

/-- Choices that differ in a menu, or commands in another body, differ around its header. -/
theorem differsAt_toCommands_node (later : List Entry)
    (hcommands : DiffersAt line (visitAll (depth + 1) false false body) (Command.Reworded old new)
      (toCommands body) (toCommands body'))
    (hchoices : DiffersAt line (visitAll (depth + 1) false true body) (RewordedChoices old new)
      (toChoices body) (toChoices body')) :
    DiffersAt line (visitAll depth false false (node number header body :: later))
      (Command.Reworded old new) (toCommands (node number header body :: later))
      (toCommands (node number header body' :: later)) := by
  have hmem (visit : Visit)
      (h : visit ∈ visitAll (depth + 1) false (header == .menu) body) :
      visit ∈ visitAll depth false false (node number header body :: later) :=
    List.mem_append_left _ (List.mem_cons_of_mem _ h)
  by_cases hmenu : header = .menu
  · subst hmenu
    exact hchoices.map (Command.menu · :: toCommands later) hmem fun _ _ => RewordedChoices.menu _
  · obtain ⟨command, hcommand, hreworded⟩ := exists_command_of_body hmenu old new
    have hplain : (header == .menu) = false := by
      cases header <;> first | rfl | exact absurd rfl hmenu
    rw [hplain] at hmem
    rw [toCommands, toCommands, hcommand, hcommand]
    exact hcommands.map (command · :: toCommands later) hmem (hreworded _)

/-- In a menu a choice differs if its body does, and every other header is dropped with its
body. -/
theorem differsAt_toChoices_node (later : List Entry)
    (h : Entry.Reworded line old new body body')
    (hcommands : DiffersAt line (visitAll (depth + 1) false false body) (Command.Reworded old new)
      (toCommands body) (toCommands body')) :
    DiffersAt line (visitAll depth false true (node number header body :: later))
      (RewordedChoices old new) (toChoices (node number header body :: later))
      (toChoices (node number header body' :: later)) := by
  cases hchoice : (node number header body).isChoice with
  | true =>
    obtain ⟨_, prompt, _, heq⟩ := exists_of_isChoice hchoice
    cases heq
    have hmem (visit : Visit) (h : visit ∈ visitAll (depth + 1) false false body) :
        visit ∈ visitAll depth false true (node number (.choice prompt) body :: later) :=
      List.mem_append_left _ (List.mem_cons_of_mem _ h)
    exact hcommands.map (⟨prompt, ·⟩ :: toChoices later) hmem
      fun _ _ => RewordedChoices.here prompt _
  | false =>
    have hchoice' : (node number header body').isChoice = false := by
      cases header <;> first | rfl | cases hchoice
    rw [visitAll_node_of_not_choice hchoice, toChoices_of_not_isChoice hchoice,
      toChoices_of_not_isChoice hchoice']
    exact (h.differsAt_of_dropped (depth + 1) (header == .menu) (RewordedChoices old new)
        (toChoices later)).map id
      (fun visit hvisit => List.mem_append_left _ (List.mem_cons_of_mem _ hvisit))
      fun _ _ => id

end Header

/-- Speech that is reworded is reworded in the commands, or among the choices, unless it is
dropped. -/
theorem Entry.Reworded.differsAt (h : Entry.Reworded line old new entries others) (depth : Nat) :
    DiffersAt line (visitAll depth false false entries) (Command.Reworded old new)
        (toCommands entries) (toCommands others) ∧
      DiffersAt line (visitAll depth false true entries) (RewordedChoices old new)
        (toChoices entries) (toChoices others) := by
  induction h generalizing depth with
  | here speaker later =>
    exact ⟨⟨_, List.mem_cons_self, rfl, .here speaker _⟩, _, List.mem_cons_self, rfl, rfl⟩
  | later entry h ih =>
    obtain ⟨hcommands, hchoices⟩ := ih depth
    refine ⟨hcommands.map (entry.toCommand :: ·) (fun _ => List.mem_append_right _)
      fun _ _ => .later _, ?_⟩
    rcases toChoices_cons_cases entry with ⟨choice, hcons⟩ | hskip
    · rw [hcons, hcons]
      exact hchoices.map (choice :: ·) (fun _ => List.mem_append_right _) fun _ _ => .later choice
    · rw [hskip, hskip]
      exact hchoices.map id (fun _ => List.mem_append_right _) fun _ _ => id
  | inside number header later h ih =>
    obtain ⟨hcommands, hchoices⟩ := ih (depth + 1)
    exact ⟨differsAt_toCommands_node later hcommands hchoices,
      differsAt_toChoices_node later h hcommands⟩

end Commands

/-! ## The outline -/

section Nest

variable {number : Nat} {indent : Int64} {speaker : Option String} {old new : String}
  {lines others : List Placed} {inMenu : Bool} {last : Option String}

/-- A replaced line stands in the body of a header or past it. -/
theorem bodies_replaced {a b : Placed} (h : Replaced a b lines others)
    (hindent : a.indent = b.indent) (least : Int64) :
    Replaced a b (bodyOf least lines) (bodyOf least others) ∧
        pastBody least lines = pastBody least others ∨
      bodyOf least lines = bodyOf least others ∧
        Replaced a b (pastBody least lines) (pastBody least others) := by
  have hspan : ∀ first : Placed,
      Replaced a b (lines.takeWhile (first.indent ≤ ·.indent))
          (others.takeWhile (first.indent ≤ ·.indent)) ∧
        lines.dropWhile (first.indent ≤ ·.indent) = others.dropWhile (first.indent ≤ ·.indent) ∨
      lines.takeWhile (first.indent ≤ ·.indent) = others.takeWhile (first.indent ≤ ·.indent) ∧
        Replaced a b (lines.dropWhile (first.indent ≤ ·.indent))
          (others.dropWhile (first.indent ≤ ·.indent)) :=
    fun first => h.span (by rw [hindent])
  cases h with
  | here later =>
    by_cases hlt : least < a.indent
    · simp only [bodyOf, pastBody, ← hindent, hlt, ite_true]
      exact hspan a
    · simp only [bodyOf, pastBody, ← hindent, hlt, ite_false]
      exact .inr ⟨trivial, .here later⟩
  | later first h =>
    by_cases hlt : least < first.indent
    · simp only [bodyOf, pastBody, hlt, ite_true]
      exact hspan first
    · simp only [bodyOf, pastBody, hlt, ite_false]
      exact .inr ⟨trivial, .later first h⟩

/-- Lines that are the same but for the text of one block have the same entries but for that
text. -/
theorem nest_replaced
    (h : Replaced ⟨number, indent, .block speaker old⟩ ⟨number, indent, .block speaker new⟩
      lines others) :
    Entry.Reworded number old new (nest inMenu last lines) (nest inMenu last others) := by
  fun_induction nest inMenu last lines generalizing others with
  | case1 => cases h
  | case2 inMenu last line later header hheader ihbody ihpast =>
    cases h with
    -- A block is no header.
    | here => cases hheader
    | @later _ others _ h =>
      rw [nest_of_header _ hheader]
      rcases bodies_replaced h rfl line.indent with ⟨hbody, hpast⟩ | ⟨hbody, hpast⟩
      · rw [← hpast]
        exact .inside _ _ _ (ihbody hbody)
      · rw [← hbody]
        exact .later _ (ihpast hpast)
  | case3 inMenu last line later hheader ih =>
    cases h with
    | here =>
      rw [nest_of_leaf _ (by rfl)]
      exact .here _ _
    | @later _ others _ h =>
      rw [nest_of_leaf _ hheader]
      cases line.item.leaf? last with
      | none => exact ih h
      | some command => exact .later _ (ih h)

end Nest

/-! ## The script -/

section Script

variable {tabWidth : UInt64} {text other : String}

theorem readItems_replaced {line line' : Line} {item item' : Item} {lines others : List Line}
    (h : Replaced line line' lines others) (hitem : line.item = .ok item)
    (hitem' : line'.item = .ok item') :
    Agree (Replaced (line, item) (line', item')) (readItems lines) (readItems others) := by
  induction h with
  | here later =>
    rw [readItems, readItems, hitem, hitem']
    simp only
    cases readItems later with
    | error error => exact .error error
    | ok items => exact .ok (.here items)
  | @later lines others first h ih =>
    rw [readItems, readItems]
    cases first.item with
    | error error => exact .error error
    | ok item =>
      simp only
      generalize readItems lines = found at ih
      generalize readItems others = found' at ih
      cases ih with
      | error error => exact .error error
      | ok hitems => exact .ok (.later _ hitems)

/-- The outlines of items that are the same but for the text of one block are the same but for
that text. -/
theorem outline_replaced {number : Nat} {indent : Int64} {content content' : Content}
    {speaker : Option String} {old new : String} {items others : List (Line × Item)}
    (h : Replaced (⟨number, indent, content⟩, .block speaker old)
      (⟨number, indent, content'⟩, .block speaker new) items others) :
    Entry.Reworded number old new (outline items) (outline others) := by
  have horigin : origin items = origin others := by cases h <;> rfl
  rw [outline_eq_nest, outline_eq_nest, ← horigin]
  exact nest_replaced (h.map (place (origin items)))

/-- Scripts whose structural lines are the same but for the text of one block have the same
entries but for that text, or the same error. -/
theorem readOutline_of_replaced {number : Nat} {indent : Int64} {speaker : Option (List Char)}
    {old new : List Char}
    (h : Replaced ⟨number, indent, .block speaker old⟩ ⟨number, indent, .block speaker new⟩
      (structural tabWidth text.toList).1 (structural tabWidth other.toList).1)
    (hend : (structural tabWidth text.toList).2 = (structural tabWidth other.toList).2) :
    Agree (Entry.Reworded number (.ofList old) (.ofList new)) (readOutline tabWidth text)
      (readOutline tabWidth other) := by
  have hitems := readItems_replaced h rfl rfl
  rw [readOutline, readOutline]
  generalize structural tabWidth text.toList = found at hend hitems
  generalize structural tabWidth other.toList = found' at hend hitems
  obtain ⟨lines, unclosed⟩ := found
  obtain ⟨others, unclosed'⟩ := found'
  obtain rfl : unclosed = unclosed' := hend
  simp only at hitems ⊢
  generalize readItems lines = items at hitems
  generalize readItems others = items' at hitems
  cases hitems with
  | error error => exact .error error
  | ok hitems =>
    cases unclosed with
    | some block => exact .error _
    | none => exact .ok (outline_replaced hitems)

/-- A menu drops what stands on the line with the number given. -/
def DropsLine (tabWidth : UInt64) (text : String) (number : Nat) : Prop :=
  ∃ entries, readOutline tabWidth text = .ok entries ∧
    ∃ visit ∈ Entry.visitAll 0 false false entries,
      visit.entry.line = number ∧ visit.dropped = true

theorem nodup_line_preorder {entries : List Entry} (h : readOutline tabWidth text = .ok entries) :
    ((Entry.preorder entries).map (·.line)).Nodup := by
  obtain ⟨items, hitems, rfl⟩ := readOutline_eq_ok h
  have hincreasing := increasing_structural tabWidth text.toList
  rw [← (readItems_eq_ok hitems).1, List.map_map] at hincreasing
  rw [line_preorder_nest]
  refine List.Nodup.sublist (List.filter_sublist.map _) ?_
  rw [List.map_map]
  exact hincreasing.imp Nat.ne_of_lt

theorem dropsLine_iff {entries : List Entry} (h : readOutline tabWidth text = .ok entries)
    {visit : Entry.Visit} (hvisit : visit ∈ Entry.visitAll 0 false false entries) :
    DropsLine tabWidth text visit.entry.line ↔ visit.dropped = true := by
  constructor
  · rintro ⟨same, hsame, other, hother, hline, hdropped⟩
    cases h.symm.trans hsame
    have hnodup := nodup_line_preorder h
    rw [← Entry.entry_visitAll 0 false false, List.map_map] at hnodup
    rwa [List.inj_on_of_nodup_map hnodup hvisit hother hline.symm]
  · exact fun hdropped => ⟨entries, h, visit, hvisit, rfl, hdropped⟩

/-- The commands of two scripts whose outlines differ in one line of speech. -/
theorem read_of_reworded {number : Nat} {old new : String}
    (h : Agree (Entry.Reworded number old new) (readOutline tabWidth text)
      (readOutline tabWidth other)) :
    Agree (fun commands others =>
        (DropsLine tabWidth text number → commands = others) ∧
          (¬DropsLine tabWidth text number → Command.Reworded old new commands others))
      (read tabWidth text) (read tabWidth other) := by
  rw [read, read]
  cases hentries : readOutline tabWidth text with
  | error error =>
    rw [hentries] at h
    generalize readOutline tabWidth other = found at h ⊢
    cases h with
    | error => exact .error error
  | ok entries =>
    rw [hentries] at h
    generalize readOutline tabWidth other = found at h ⊢
    cases h with
    | ok h =>
      obtain ⟨visit, hvisit, rfl, hdiffers⟩ := (h.differsAt 0).1
      rw [dropsLine_iff hentries hvisit]
      refine .ok ⟨fun hdropped => ?_, fun hkept => ?_⟩
      · rwa [if_pos hdropped] at hdiffers
      · rwa [if_neg hkept] at hdiffers

/-- What stands inside a block has no part in how a script is read but for the text of the block.
If the lines that go on with it, and what precedes the delimiter on its last line, are replaced
by as many lines without the delimiter, the script has the same entries but for the text of the
speech on the line of the block, and the same commands but for the text of one line of speech, or it
is rejected with the same error. Only if a menu drops the line of the block, its text is in no
command. A block without an end is rejected with the same error whatever stands in it. -/
theorem read_reworded {before inner inner' : List (List Char)}
    {opening delimiter first : List Char}
    (houtside : openBefore none before before.length = none)
    (hopening : LeavesOpen opening delimiter first)
    (hinner : ∀ line ∈ inner, ¬delimiter <:+: line)
    (hinner' : ∀ line ∈ inner', ¬delimiter <:+: line) (hlength : inner.length = inner'.length) :
    (∀ closing closing' last last' rest rest' after,
      cut? delimiter closing = some (last, rest) → cut? delimiter closing' = some (last', rest') →
      Text.lines text.toList = before ++ opening :: (inner ++ closing :: after) →
      Text.lines other.toList = before ++ opening :: (inner' ++ closing' :: after) →
      let old := String.ofList (blockText first inner last)
      let new := String.ofList (blockText first inner' last')
      Agree (Entry.Reworded (before.length + 1) old new) (readOutline tabWidth text)
          (readOutline tabWidth other) ∧
        Agree (fun commands others =>
            (DropsLine tabWidth text (before.length + 1) → commands = others) ∧
              (¬DropsLine tabWidth text (before.length + 1) →
                Command.Reworded old new commands others))
          (read tabWidth text) (read tabWidth other)) ∧
    (Text.lines text.toList = before ++ opening :: inner →
      Text.lines other.toList = before ++ opening :: inner' →
      read tabWidth text = read tabWidth other) := by
  obtain ⟨speaker, hopen⟩ := hopening.exists_openLine_eq tabWidth
  constructor
  · intro closing closing' last last' rest rest' after hlast hlast' htext hother old new
    have hlines := structural_closed htext houtside hopen hinner hlast
    have hothers := structural_closed hother houtside hopen hinner' hlast'
    rw [← hlength] at hothers
    have houtline : Agree (Entry.Reworded (before.length + 1) old new) (readOutline tabWidth text)
        (readOutline tabWidth other) := by
      have hreplaced : Replaced
          ⟨before.length + 1, measureIndent tabWidth opening,
            .block speaker (blockText first inner last)⟩
          ⟨before.length + 1, measureIndent tabWidth opening,
            .block speaker (blockText first inner' last')⟩
          (structural tabWidth text.toList).1 (structural tabWidth other.toList).1 := by
        rw [hlines, hothers]
        exact .append_cons _ _
      exact readOutline_of_replaced hreplaced (by rw [hlines, hothers])
    exact ⟨houtline, read_of_reworded houtline⟩
  · intro htext hother
    have hlines := structural_unclosed htext houtside hopen hinner
    have hothers := structural_unclosed hother houtside hopen hinner'
    rw [read, read, readOutline, readOutline, hlines, hothers]
    simp only
    cases readItems (structuralFrom tabWidth none 1 before).1 <;> rfl

/-- A jump inside a block is replaced by a comment with quotes of the other kind, and its last line
by the delimiter alone. -/
theorem read_reworded_in_label :
    openBefore none ["label a:".toList] 1 = none ∧
      LeavesOpen "  e \"\"\" Hi".toList ['"', '"', '"'] " Hi".toList ∧
      ¬['"', '"', '"'] <:+: "jump b".toList ∧ ¬['"', '"', '"'] <:+: "# ''' x".toList ∧
      Agree (Entry.Reworded 2 "Hi\njump b\n there" "Hi\n# ''' x")
        (readOutline 4 "label a:\n  e \"\"\" Hi\njump b\n there\"\"\"\n  jump c")
        (readOutline 4 "label a:\n  e \"\"\" Hi\n# ''' x\n\"\"\"\n  jump c") ∧
      read 4 "label a:\n  e \"\"\" Hi\njump b\n there\"\"\"\n  jump c" =
        .ok [.label "a" [.dialogue (some "e") "Hi\njump b\n there", .jump "c"]] ∧
      Agree (Command.Reworded "Hi\njump b\n there" "Hi\n# ''' x")
        (read 4 "label a:\n  e \"\"\" Hi\njump b\n there\"\"\"\n  jump c")
        (read 4 "label a:\n  e \"\"\" Hi\n# ''' x\n\"\"\"\n  jump c") := by
  have houtside : openBefore none ["label a:".toList] 1 = none := by decide +kernel
  have hopening : LeavesOpen "  e \"\"\" Hi".toList ['"', '"', '"'] " Hi".toList :=
    ⟨by decide +kernel, ⟨"e ".toList, by decide +kernel⟩, by decide +kernel⟩
  have hinner : ¬['"', '"', '"'] <:+: "jump b".toList := by decide +kernel
  have hinner' : ¬['"', '"', '"'] <:+: "# ''' x".toList := by decide +kernel
  have htext : Text.lines "label a:\n  e \"\"\" Hi\njump b\n there\"\"\"\n  jump c".toList =
      ["label a:".toList] ++ "  e \"\"\" Hi".toList ::
        (["jump b".toList] ++ " there\"\"\"".toList :: ["  jump c".toList]) := by
    decide +kernel
  have hother : Text.lines "label a:\n  e \"\"\" Hi\n# ''' x\n\"\"\"\n  jump c".toList =
      ["label a:".toList] ++ "  e \"\"\" Hi".toList ::
        (["# ''' x".toList] ++ "\"\"\"".toList :: ["  jump c".toList]) := by
    decide +kernel
  have hold : String.ofList (blockText " Hi".toList ["jump b".toList] " there".toList) =
      "Hi\njump b\n there" := by
    decide +kernel
  have hnew : String.ofList (blockText " Hi".toList ["# ''' x".toList] []) = "Hi\n# ''' x" := by
    decide +kernel
  have hlast : cut? ['"', '"', '"'] " there\"\"\"".toList = some (" there".toList, []) := by
    decide +kernel
  have hlast' : cut? ['"', '"', '"'] "\"\"\"".toList = some ([], []) := by decide +kernel
  have hreworded := (@read_reworded 4 _ _ _ _ _ _ _ _ houtside hopening
    (List.forall_mem_singleton.2 hinner) (List.forall_mem_singleton.2 hinner') rfl).1
      _ _ _ _ _ _ _ hlast hlast' htext hother
  rw [hold, hnew] at hreworded
  have houtline : readOutline 4 "label a:\n  e \"\"\" Hi\njump b\n there\"\"\"\n  jump c" =
      .ok [.node 1 (.label "a")
        [.leaf 2 (.dialogue (some "e") "Hi\njump b\n there"), .leaf 5 (.jump "c")]] := by
    rfl
  have hkept : ¬DropsLine 4 "label a:\n  e \"\"\" Hi\njump b\n there\"\"\"\n  jump c" 2 := by
    have hvisit := @dropsLine_iff _ _ _ houtline
      ⟨1, .leaf 2 (.dialogue (some "e") "Hi\njump b\n there"), false⟩ (.tail _ (.head _))
    exact fun hdrops => Bool.false_ne_true (hvisit.1 hdrops)
  exact ⟨houtside, hopening, hinner, hinner', hreworded.1, by rw [read, houtline]; rfl,
    hreworded.2.imp fun _ _ hsame => hsame.2 hkept⟩

end Script

end Script

end StoryScript
