import StoryScript.Proofs.Lines.Blocks
import StoryScript.Proofs.Nesting.Width
import StoryScript.Proofs.Writer.Speech
import StoryScript.Script.Reader

/-! # Lines that are written

The lines of a script that is written are its structural lines. Each of them holds one statement,
is indented by four blanks for each level and opens no block.
-/

namespace StoryScript.Script

open Text

namespace Statement

section OneLine

variable {s t : List Char}

theorem isOneLine_append (hs : IsOneLine s) (ht : IsOneLine t) : IsOneLine (s ++ t) := by
  constructor
  · exact fun h => (List.mem_append.1 h).elim hs.1 ht.1
  · exact fun h => (List.mem_append.1 h).elim hs.2 ht.2

theorem isOneLine_literal (h : '\r' ∉ s) : IsOneLine (Quoted.literal s) := by
  have hencode : IsOneLine (Quoted.encode s) :=
    ⟨fun hmem => (Quoted.not_lineEnd_of_mem_encode h hmem).1 rfl,
      fun hmem => (Quoted.not_lineEnd_of_mem_encode h hmem).2 rfl⟩
  rw [Quoted.literal, ← List.singleton_append]
  exact isOneLine_append (by decide) (isOneLine_append hencode (by decide))

theorem isOneLine_of_not_blank (h : ∀ c ∈ s, c = ' ' ∨ isBlank c = false) : IsOneLine s := by
  constructor
  · exact fun hmem => (h _ hmem).elim (by decide) (by decide)
  · exact fun hmem => (h _ hmem).elim (by decide) (by decide)

theorem isOneLine_phrase {keywords : List (List Char)} (h : IsPhrase keywords s) : IsOneLine s :=
  isOneLine_of_not_blank fun _ hc => eq_space_or_of_mem_phrase h hc

theorem isOneLine_number {n : Number} (h : n.isFinite = true) : IsOneLine n.text :=
  isOneLine_of_not_blank fun c hc => .inr ((Number.isWord_text h).plain c hc).1

theorem isOneLine_clause {keyword : String} {s? : Option (List Char)}
    (hkeyword : IsOneLine keyword.toList) (h : ∀ s ∈ s?, IsOneLine s) :
    IsOneLine (clause keyword s?) := by
  cases s? with
  | none => exact ⟨nofun, nofun⟩
  | some s =>
    rw [clause, ← List.singleton_append, ← List.singleton_append (l := s)]
    exact isOneLine_append (by decide)
      (isOneLine_append hkeyword (isOneLine_append (by decide) (h s rfl)))

theorem isOneLine_clause_phrase {keyword : String} {keywords : List (List Char)}
    {s? : Option String} (hkeyword : IsOneLine keyword.toList)
    (h : ∀ s ∈ s?, IsPhrase keywords s.toList) :
    IsOneLine (clause keyword (s?.map String.toList)) :=
  isOneLine_clause hkeyword fun s hs => isOneLine_phrase (isPhrase_of_mem_map h s hs)

theorem isOneLine_clause_number {keyword : String} {seconds : Option Number}
    (hkeyword : IsOneLine keyword.toList) (h : ∀ n ∈ seconds, n.isFinite) :
    IsOneLine (clause keyword (seconds.map Number.text)) := by
  refine isOneLine_clause hkeyword fun s hs => ?_
  obtain ⟨n, hn, rfl⟩ := Option.map_eq_some_iff.1 hs
  exact isOneLine_number (h n hn)

theorem isOneLine_commandText {command : Command} (h : IsWritableCommand command) :
    IsOneLine (commandText command) := by
  match command with
  | .scene _ _ =>
    exact isOneLine_append (by decide)
      (isOneLine_append (isOneLine_phrase h.1) (isOneLine_clause_phrase (by decide) h.2))
  | .dialogue none _ => exact isOneLine_literal h.2
  | .dialogue (some speaker) _ =>
    exact isOneLine_append (h.1 speaker rfl).tidy.oneLine
      (isOneLine_append (s := [' ']) (by decide) (isOneLine_literal h.2))
  | .define _ _ none =>
    refine isOneLine_append (by decide) (isOneLine_append (isOneLine_of_not_blank ?_)
      (isOneLine_append (by decide) h.2.2.oneLine))
    exact fun c hc => .inr (isBlank_of_isNameChar (List.all_eq_true.1 h.2.1 c hc))
  | .define _ _ (some _) =>
    exact isOneLine_append (by decide) (isOneLine_append h.1.oneLine
      (isOneLine_append (by decide) h.2.2.1.oneLine))
  | .playMusic _ _ =>
    exact isOneLine_append (by decide)
      (isOneLine_append (isOneLine_literal h.1) (isOneLine_clause_number (by decide) h.2))
  | .stopMusic _ => exact isOneLine_append (by decide) (isOneLine_clause_number (by decide) h)
  | .showImage _ _ _ =>
    exact isOneLine_append (by decide) (isOneLine_append (isOneLine_phrase h.1)
      (isOneLine_append (isOneLine_clause_phrase (by decide) h.2.1)
        (isOneLine_clause_phrase (by decide) h.2.2)))
  | .hideImage _ _ =>
    exact isOneLine_append (by decide)
      (isOneLine_append (isOneLine_phrase h.1) (isOneLine_clause_phrase (by decide) h.2))
  | .pause none => decide
  | .pause (some n) => exact isOneLine_append (by decide) (isOneLine_number (h n rfl))
  | .jump _ => exact isOneLine_append (by decide) h.2.oneLine
  | .finish => decide
  | .label _ _ | .menu _ | .strayChoice _ | .ifBranch _ _ | .elifBranch _ _ | .elseBranch _
  | .unsupported => exact h.elim

theorem isOneLine_headerText {header : Header} (h : IsWritableHeader header) :
    IsOneLine (headerText header) := by
  cases header with
  | label name =>
    exact isOneLine_append (by decide) (isOneLine_append h.1.oneLine (by decide))
  | menu => decide
  | choice prompt => exact h.elim
  | ifBranch condition =>
    exact isOneLine_append (by decide) (isOneLine_append h.1.oneLine (by decide))
  | elifBranch condition =>
    exact isOneLine_append (by decide) (isOneLine_append h.1.oneLine (by decide))
  | elseBranch => decide

theorem isOneLine_text {statement : Statement} (h : statement.IsWritable) :
    IsOneLine statement.text := by
  cases statement with
  | ignored => exact h.elim
  | simple command => exact isOneLine_commandText h
  | header header => exact isOneLine_headerText h
  | prompt content => exact isOneLine_append (isOneLine_literal h) (by decide)

end OneLine

section First

/-- Whether a line that begins with a character is neither blank, a comment nor marked. -/
def opensLine (c : Char) : Bool :=
  !isBlank c && c != '#' && c != '\uFEFF'

theorem opensLine_iff {c : Char} :
    opensLine c = true ↔ isBlank c = false ∧ c ≠ '#' ∧ c ≠ '\uFEFF' := by
  simp only [opensLine, Bool.and_eq_true, Bool.not_eq_true', bne_iff_ne, and_assoc]

theorem opensLine_of_isNameChar {c : Char} (h : isNameChar c = true) : opensLine c = true := by
  have hplain : isNameChar '#' = false ∧ isNameChar '\uFEFF' = false := by decide +kernel
  refine opensLine_iff.2 ⟨isBlank_of_isNameChar h, ?_, ?_⟩
  · rintro rfl
    rw [hplain.1] at h
    cases h
  · rintro rfl
    rw [hplain.2] at h
    cases h

theorem exists_commandText_eq_cons {command : Command} (h : IsWritableCommand command) :
    ∃ first rest, commandText command = first :: rest ∧ opensLine first = true := by
  match command with
  | .dialogue (some speaker) _ =>
    have hspeaker := h.1 speaker rfl
    obtain ⟨first, later, hchars⟩ := List.exists_cons_of_ne_nil hspeaker.nonempty
    have hblank := (trim_eq_self_iff.1 hspeaker.tidy.trimmed).1 first (by rw [hchars]; rfl)
    have hname := List.all_eq_true.1 hspeaker.names first (by rw [hchars]; exact List.mem_cons_self)
    rw [hblank, Bool.false_or] at hname
    rw [commandText, hchars]
    exact ⟨first, _, rfl, opensLine_of_isNameChar hname⟩
  | .label _ _ | .menu _ | .strayChoice _ | .ifBranch _ _ | .elifBranch _ _ | .elseBranch _
  | .unsupported => exact h.elim
  | .scene _ _ | .dialogue none _ | .define _ _ none | .define _ _ (some _) | .playMusic _ _
  | .stopMusic _ | .showImage _ _ _ | .hideImage _ _ | .pause none | .pause (some _) | .jump _
  | .finish => exact ⟨_, _, rfl, by decide +kernel⟩

theorem exists_text_eq_cons {statement : Statement} (h : statement.IsWritable) :
    ∃ first rest, statement.text = first :: rest ∧ opensLine first = true := by
  match statement with
  | .ignored | .header (.choice _) => exact h.elim
  | .simple command => exact exists_commandText_eq_cons h
  | .header (.label _) | .header .menu | .header (.ifBranch _) | .header (.elifBranch _)
  | .header .elseBranch | .prompt _ => exact ⟨_, _, rfl, by decide +kernel⟩

end First

end Statement

section Indent

variable {tabWidth : UInt64} {written : Written} {number : Nat}

theorem isBlank_of_mem_replicate (n : Nat) : ∀ c ∈ List.replicate n ' ', isBlank c = true := by
  intro c hc
  rw [List.eq_of_mem_replicate hc]
  rfl

theorem leadingWidth_line (h : written.statement.IsWritable) :
    leadingWidth tabWidth written.line = 4 * written.level := by
  obtain ⟨first, rest, htext, hfirst⟩ := Statement.exists_text_eq_cons h
  have hblank := (Statement.opensLine_iff.1 hfirst).1
  rw [leadingWidth, Written.line, htext, List.takeWhile_append_of_pos (isBlank_of_mem_replicate _),
    List.takeWhile_cons_of_neg (by simp [hblank]), List.append_nil]
  simp

theorem openLine_line (h : written.statement.IsWritable)
    (hplain : ∀ delimiter ∈ delimiters, ¬delimiter <:+: written.line) :
    openLine tabWidth number written.line =
      .complete ⟨number, measureIndent tabWidth written.line,
        .statement (trim written.statement.text)⟩ := by
  obtain ⟨first, rest, htext, hfirst⟩ := Statement.exists_text_eq_cons h
  obtain ⟨hblank, hcomment, -⟩ := Statement.opensLine_iff.1 hfirst
  have htrim : trim written.line = trim written.statement.text := by
    rw [Written.line, trim_append_of_blank (isBlank_of_mem_replicate _)]
  have hcut : cutAtDelimiter? (trim written.line) = none :=
    cutAtDelimiter?_eq_none_iff.2 fun delimiter hmem hwithin =>
      hplain delimiter hmem (hwithin.trans (infix_trim _))
  have hopen : ¬((trim written.statement.text).isEmpty ||
      (trim written.statement.text).head? == some '#') = true := by
    rw [htext, trim_cons_of_not_blank hblank]
    simpa using hcomment
  rw [htrim] at hcut
  rw [openLine, htrim]
  simp only [hcut]
  exact if_neg hopen

end Indent

section Items

variable {tabWidth : UInt64}

/-- The structural lines of lines that are written, with what they add. -/
theorem exists_items {script : List Written}
    (hwritable : ∀ written ∈ script, written.statement.IsWritable)
    (hplain : ∀ written ∈ script, ∀ delimiter ∈ delimiters, ¬delimiter <:+: written.line)
    (hfits : ∀ written ∈ script, 4 * written.level < 2 ^ 63) (number : Nat) :
    ∃ items : List (Line × Item),
      structuralFrom tabWidth none number (script.map (·.line) ++ [[]]) =
        (items.map (·.1), none) ∧
      readItems (items.map (·.1)) = .ok items ∧
      items.map (fun found => (found.1.indent.toInt, found.2)) =
        script.map fun written => ((4 * written.level : Int), .statement written.statement) := by
  induction script generalizing number with
  | nil => exact ⟨[], rfl, rfl, rfl⟩
  | cons written script ih =>
    obtain ⟨items, hlines, hread, hitems⟩ :=
      ih (fun other hother => hwritable other (List.mem_cons_of_mem _ hother))
        (fun other hother => hplain other (List.mem_cons_of_mem _ hother))
        (fun other hother => hfits other (List.mem_cons_of_mem _ hother)) (number + 1)
    have hstatement := hwritable written List.mem_cons_self
    have hwidth := @leadingWidth_line tabWidth _ hstatement
    have hindent := @toInt_measureIndent tabWidth written.line
      (by rw [hwidth]; exact hfits written List.mem_cons_self)
    have hopen := @openLine_line tabWidth written number hstatement
      (hplain written List.mem_cons_self)
    refine ⟨(⟨number, measureIndent tabWidth written.line,
      .statement (trim written.statement.text)⟩, .statement written.statement) :: items, ?_, ?_, ?_⟩
    · rw [List.map_cons, List.cons_append, structuralFrom, hopen]
      simp only [hlines]
      rfl
    · rw [List.map_cons, readItems, Line.item]
      simp only [Statement.read_trim_text hstatement, hread]
      rfl
    · rw [List.map_cons, List.map_cons, hitems, hindent, hwidth]
      rfl

end Items

section Write

theorem unifyLineEnds_eq_self {s : List Char} (h : '\r' ∉ s) : unifyLineEnds s = s := by
  fun_induction unifyLineEnds s with
  | case1 => rfl
  | case2 s ih => exact absurd List.mem_cons_self h
  | case3 c s _ ih =>
    rw [List.mem_cons, not_or] at h
    rw [ih h.2, if_neg (Ne.symm h.1)]

theorem dropByteOrderMarks_eq_self {s : List Char} (h : s.head? ≠ some '\uFEFF') :
    dropByteOrderMarks s = s := by
  cases s with
  | nil => rfl
  | cons c s => exact List.dropWhile_cons_of_neg (by simpa using h)

theorem exists_line_eq_cons {written : Written} (h : written.statement.IsWritable) :
    ∃ first rest, written.line = first :: rest ∧ first ≠ '\uFEFF' := by
  obtain ⟨first, rest, htext, hfirst⟩ := Statement.exists_text_eq_cons h
  rw [Written.line, htext]
  cases 4 * written.level with
  | zero => exact ⟨first, rest, rfl, (Statement.opensLine_iff.1 hfirst).2.2⟩
  | succ n => exact ⟨' ', _, rfl, by decide⟩

theorem isOneLine_line {written : Written} (h : written.statement.IsWritable) :
    IsOneLine written.line :=
  Statement.isOneLine_append
    (Statement.isOneLine_of_not_blank fun _ hc => .inl (List.eq_of_mem_replicate hc))
    (Statement.isOneLine_text h)

theorem splitOn_flatMap_line {script : List Written}
    (hwritable : ∀ written ∈ script, written.statement.IsWritable) :
    (script.flatMap fun written => written.line ++ ['\n']).splitOn '\n' =
      script.map (·.line) ++ [[]] := by
  induction script with
  | nil => rfl
  | cons written script ih =>
    have hline := isOneLine_line (hwritable written List.mem_cons_self)
    rw [List.flatMap_cons, List.append_assoc, List.singleton_append,
      List.splitOn_append_cons_self_of_not_mem hline.1,
      ih fun other hother => hwritable other (List.mem_cons_of_mem _ hother)]
    rfl

/-- The lines of a script are those that were written. -/
theorem lines_flatMap_line {script : List Written}
    (hwritable : ∀ written ∈ script, written.statement.IsWritable) :
    lines (script.flatMap fun written => written.line ++ ['\n']) =
      script.map (·.line) ++ [[]] := by
  have hreturn : '\r' ∉ script.flatMap fun written => written.line ++ ['\n'] := by
    intro hmem
    obtain ⟨written, hwritten, hc⟩ := List.mem_flatMap.1 hmem
    have hline := isOneLine_line (hwritable written hwritten)
    exact (List.mem_append.1 hc).elim hline.2 (by decide)
  have hmark : (script.flatMap fun written => written.line ++ ['\n']).head? ≠ some '\uFEFF' := by
    cases script with
    | nil => exact nofun
    | cons written script =>
      obtain ⟨first, rest, hline, hfirst⟩ :=
        exists_line_eq_cons (hwritable written List.mem_cons_self)
      rw [List.flatMap_cons, hline]
      exact fun heq => hfirst (Option.some.inj heq)
  rw [lines, unifyLineEnds_eq_self hreturn, dropByteOrderMarks_eq_self hmark,
    splitOn_flatMap_line hwritable]

end Write

end StoryScript.Script
