import StoryScript.Proofs.Nesting.Script
import StoryScript.Proofs.Writer.Lines

/-! # Lines of speech by themselves

A line of speech is a script of its own. Its literal has no three double quotes in a row, but the
single quotes of its text stand in it as they are, and three of them delimit a block. What stands
before them, the opening quote included, is then taken for the speaker. So a line of speech is read
back exactly if its text has no three single quotes in a row.
-/

namespace StoryScript.Script

open Text

def apostrophes : List Char := ['\'', '\'', '\'']

namespace Statement

section Parts

variable {speaker : Option String} {text : String} {delimiter : List Char}

theorem exists_before_literal (h : IsWritableCommand (.dialogue speaker text)) :
    ∃ before, commandText (.dialogue speaker text) = before ++ Quoted.literal text.toList ∧
      ∀ c ∈ before, Quoted.isQuote c = false := by
  cases speaker with
  | none => exact ⟨[], rfl, nofun⟩
  | some speaker =>
    refine ⟨speaker.toList ++ [' '], ?_, ?_⟩
    · rw [List.append_assoc, List.singleton_append]
      rfl
    · intro c hc
      rcases List.mem_append.1 hc with hc | hc
      · exact not_isQuote_of_isSpeaker (h.1 speaker rfl).names hc
      · rw [List.mem_singleton.1 hc]
        rfl

theorem infix_commandText_iff (h : IsWritableCommand (.dialogue speaker text))
    (hdelimiter : delimiter ∈ delimiters) :
    delimiter <:+: commandText (.dialogue speaker text) ↔
      delimiter <:+: Quoted.literal text.toList := by
  obtain ⟨before, hline, hbefore⟩ := exists_before_literal h
  have hhead : ∀ c ∈ delimiter.head?, (!Quoted.isQuote c) = false := by
    simp only [delimiters, List.mem_cons, List.not_mem_nil, or_false] at hdelimiter
    rcases hdelimiter with rfl | rfl
    · rintro _ ⟨⟩
      rfl
    · rintro _ ⟨⟩
      rfl
  have hdrop : (before ++ Quoted.literal text.toList).dropWhile (!Quoted.isQuote ·) =
      Quoted.literal text.toList := by
    rw [List.dropWhile_append_of_pos fun c hc => by rw [hbefore c hc]; rfl]
    rfl
  rw [hline, ← infix_dropWhile_iff (ne_nil_of_mem_delimiters hdelimiter) hhead, hdrop]

theorem apostrophes_infix_commandText_iff (h : IsWritableCommand (.dialogue speaker text)) :
    apostrophes <:+: commandText (.dialogue speaker text) ↔ apostrophes <:+: text.toList := by
  have hne : apostrophes ≠ [] := List.cons_ne_nil _ _
  have hplain : ∀ c ∈ apostrophes, Quoted.StandsForItself c := by
    simp [apostrophes, Quoted.StandsForItself]
  rw [infix_commandText_iff h (by decide), Quoted.infix_literal_iff hne hplain]

theorem eq_apostrophes_of_infix_commandText (h : IsWritableCommand (.dialogue speaker text))
    (hdelimiter : delimiter ∈ delimiters)
    (hwithin : delimiter <:+: commandText (.dialogue speaker text)) :
    delimiter = apostrophes := by
  rw [infix_commandText_iff h hdelimiter] at hwithin
  simp only [delimiters, List.mem_cons, List.not_mem_nil, or_false] at hdelimiter
  rcases hdelimiter with rfl | rfl
  · exact absurd hwithin (Quoted.not_quotes_infix_literal _)
  · rfl

/-- What stands before a single quote in a line of speech contains the double quote at the start of
the literal. -/
theorem mem_of_append_eq_commandText (h : IsWritableCommand (.dialogue speaker text))
    {front back : List Char}
    (hline : commandText (.dialogue speaker text) = front ++ '\'' :: back) : '"' ∈ front := by
  obtain ⟨before, hparts, hbefore⟩ := exists_before_literal h
  rw [hparts] at hline
  rcases List.append_eq_append_iff.1 hline with ⟨middle, rfl, hliteral⟩ | ⟨middle, rfl, hquote⟩
  · cases middle with
    | nil => cases hliteral
    | cons c middle =>
      rw [(List.cons.inj hliteral).1]
      exact List.mem_append_right _ List.mem_cons_self
  · cases middle with
    | nil => cases hquote
    | cons c middle =>
      have hc := hbefore c (List.mem_append_right _ List.mem_cons_self)
      rw [← (List.cons.inj hquote).1] at hc
      cases hc

/-- If a line of speech is cut at a delimiter, then at single quotes and after the double quote at
the start of the literal. -/
theorem mem_of_cutAtDelimiter? (h : IsWritableCommand (.dialogue speaker text))
    {before rest : List Char}
    (hcut : cutAtDelimiter? (commandText (.dialogue speaker text)) =
      some (delimiter, before, rest)) :
    apostrophes <:+: commandText (.dialogue speaker text) ∧ '"' ∈ before := by
  obtain ⟨hdelimiter, hline⟩ := eq_append_of_cutAtDelimiter? hcut
  have hwithin : delimiter <:+: commandText (.dialogue speaker text) :=
    ⟨before, rest, by rw [hline, List.append_assoc]⟩
  obtain rfl := eq_apostrophes_of_infix_commandText h hdelimiter hwithin
  exact ⟨hwithin, mem_of_append_eq_commandText h hline⟩

end Parts

end Statement

section Alone

open Statement

variable {tabWidth : UInt64} {indent : Nat} {speaker : Option String} {text : String}
  {s : List Char}

theorem lines_of_isOneLine (h : IsOneLine s) (hmark : s.head? ≠ some '\uFEFF') : lines s = [s] := by
  rw [lines, unifyLineEnds_eq_self h.2, dropByteOrderMarks_eq_self hmark]
  exact List.splitOn_eq_singleton h.1

theorem lines_spoken (h : IsWritableCommand (.dialogue speaker text)) (indent : Nat) :
    lines (List.replicate indent ' ' ++ commandText (.dialogue speaker text)) =
      [List.replicate indent ' ' ++ commandText (.dialogue speaker text)] := by
  apply lines_of_isOneLine
  · exact isOneLine_append (isOneLine_of_not_blank fun _ hc => .inl (List.eq_of_mem_replicate hc))
      (isOneLine_commandText h)
  · cases indent with
    | zero =>
      obtain ⟨first, rest, htext, hfirst⟩ := exists_commandText_eq_cons h
      rw [htext]
      exact fun heq => (opensLine_iff.1 hfirst).2.2 (Option.some.inj heq)
    | succ indent => simp [List.replicate_succ]

theorem trim_commandText (h : IsWritableCommand (.dialogue speaker text)) :
    trim (commandText (.dialogue speaker text)) = commandText (.dialogue speaker text) := by
  obtain ⟨first, rest, htext, hfirst⟩ := exists_commandText_eq_cons h
  obtain ⟨before, hparts, -⟩ := exists_before_literal h
  refine trim_eq_self_iff.2 ⟨?_, ?_⟩
  · rw [htext]
    rintro _ ⟨⟩
    exact (opensLine_iff.1 hfirst).1
  · rw [hparts]
    exact endsPlain_append (List.cons_ne_nil _ _) endsPlain_literal

theorem isStructural_commandText (h : IsWritableCommand (.dialogue speaker text)) :
    IsStructural (commandText (.dialogue speaker text)) := by
  obtain ⟨first, rest, htext, hfirst⟩ := exists_commandText_eq_cons h
  rw [htext]
  exact ⟨List.cons_ne_nil _ _, fun heq => (opensLine_iff.1 hfirst).2.1 (Option.some.inj heq)⟩

/-- A line of speech that is a script by itself is read back exactly if no three single quotes
stand in a row in its text. -/
theorem read_commandText_iff (h : IsWritableCommand (.dialogue speaker text)) (indent : Nat) :
    read tabWidth (.ofList (List.replicate indent ' ' ++ commandText (.dialogue speaker text))) =
        .ok [.dialogue speaker text] ↔
      ¬apostrophes <:+: text.toList := by
  have hlines := lines_spoken h indent
  have htrim : trim (List.replicate indent ' ' ++ commandText (.dialogue speaker text)) =
      commandText (.dialogue speaker text) := by
    rw [trim_append_of_blank (isBlank_of_mem_replicate _), trim_commandText h]
  obtain ⟨opening, hopens, heq⟩ := exists_opens (commandText (.dialogue speaker text))
  have hopen := heq tabWidth 1 _ htrim
  rw [← apostrophes_infix_commandText_iff h, read]
  cases hopens with
  | skipped hskip => exact absurd (isStructural_commandText h) hskip
  | statement hstructural hplain =>
    have hstatement : Statement.read (commandText (.dialogue speaker text)) =
        .ok (.simple (.dialogue speaker text)) := by
      have hread := read_trim_command h
      rwa [Statement.text, trim_commandText h] at hread
    have hitem : ∀ number indent,
        Line.item ⟨number, indent, .statement (commandText (.dialogue speaker text))⟩ =
          .ok (.statement (.simple (.dialogue speaker text))) := fun number indent => by
      simp only [Line.item, hstatement]
    rw [readOutline_of_complete hlines hopen (hitem _ _)]
    exact iff_of_true rfl (hplain _ (by decide))
  | @block _ before inside _ _ hcut =>
    obtain ⟨hwithin, hquote⟩ := mem_of_cutAtDelimiter? h hcut
    have hquote : '"' ∈ trim before := mem_trim_of_not_blank hquote rfl
    have hname : nonBlank? before = some (trim before) :=
      if_neg (mt List.isEmpty_iff.1 (List.ne_nil_of_mem hquote))
    rw [readOutline_of_complete hlines hopen rfl, hname]
    refine iff_of_false (fun hread => ?_) (not_not_intro hwithin)
    -- The speaker that is read contains the opening quote, so it is no name.
    obtain ⟨hspeaker, -⟩ := Command.dialogue.inj (List.cons.inj (Except.ok.inj hread)).1
    have hnames := (h.1 _ hspeaker.symm).names
    rw [String.toList_ofList] at hnames
    exact absurd (not_isQuote_of_isSpeaker hnames hquote) (by decide)
  | unfinished _ hcut =>
    obtain ⟨hwithin, -⟩ := mem_of_cutAtDelimiter? h hcut
    rw [readOutline_of_unfinished hlines hopen]
    refine iff_of_false ?_ (not_not_intro hwithin)
    rintro ⟨⟩

/-! ## Speakers of one word -/

def keywords : List String :=
  ["label", "scene", "define", "if", "elif", "jump", "pause", "show", "hide"]

/-- A word of letters, digits, underscores and periods with which no statement begins. -/
structure IsName (word : String) : Prop where
  nonempty : word ≠ ""
  plain : ∀ c ∈ word.toList, isNameChar c = true
  unreserved : word ∉ keywords

section Names

variable {word : String}

theorem not_isBlank_of_isName (h : IsName word) {c : Char} (hc : c ∈ word.toList) :
    isBlank c = false :=
  isBlank_of_isNameChar (h.plain c hc)

theorem not_opener_prefix_of_isName (h : IsName word) {opener : String}
    (hopener : opener ∈ openers) : ¬opener.toList <+: word.toList ++ [' '] := by
  have hform : ∀ opener ∈ openers, ∃ first ∈ "$" :: "play music" :: "stop music" :: keywords,
      opener.toList = first.toList ++ [' '] := by
    decide
  obtain ⟨first, hfirst, hchars⟩ := hform opener hopener
  rw [hchars, List.prefix_concat_iff]
  rintro (hword | hprefix)
  · obtain rfl : first = word := String.toList_inj.1 (List.append_cancel_right hword)
    simp only [List.mem_cons] at hfirst
    rcases hfirst with rfl | rfl | rfl | hfirst
    · exact absurd (h.plain '$' (by decide)) (by decide +kernel)
    · exact absurd (h.plain ' ' (by decide)) (by decide +kernel)
    · exact absurd (h.plain ' ' (by decide)) (by decide +kernel)
    · exact h.unreserved hfirst
  · have hspace := hprefix.subset (List.mem_append_right _ List.mem_cons_self)
    exact absurd (not_isBlank_of_isName h hspace) (by decide)

theorem isSpeaker_of_isName (h : IsName word) : IsSpeaker word.toList where
  nonempty := by simpa using h.nonempty
  tidy :=
    ⟨trim_eq_self_iff.2 ⟨fun c hc => not_isBlank_of_isName h (List.mem_of_mem_head? hc),
      fun c hc => not_isBlank_of_isName h (List.mem_of_getLast? hc)⟩,
      isOneLine_of_not_blank fun c hc => .inr (not_isBlank_of_isName h hc)⟩
  names := List.all_eq_true.2 fun c hc => by rw [h.plain c hc, Bool.or_true]
  unopened := fun _ hopener => not_opener_prefix_of_isName h hopener

end Names

/-- A line of the narrator, or of a speaker with a name of one word, is read as the one line of
speech that it was written from exactly if no three single quotes stand in a row in its text. -/
theorem read_spoken_iff {tabWidth : UInt64} {speaker : Option String} {text : String}
    (hspeaker : ∀ word ∈ speaker, IsName word) (htext : '\r' ∉ text.toList) (indent : Nat) :
    read tabWidth (.ofList (List.replicate indent ' ' ++ commandText (.dialogue speaker text))) =
        .ok [.dialogue speaker text] ↔
      ¬apostrophes <:+: text.toList :=
  read_commandText_iff ⟨fun word hword => isSpeaker_of_isName (hspeaker word hword), htext⟩ indent

def rant : String := "it's: \"# $ x = ''\" \\\nlabel a:"

theorem read_spoken_iff_rant :
    (∀ word ∈ some "e.2", IsName word) ∧ '\r' ∉ rant.toList ∧ ¬apostrophes <:+: rant.toList ∧
      read defaultTabWidth (.ofList (commandText (.dialogue (some "e.2") rant))) =
        .ok [.dialogue (some "e.2") rant] := by
  have hname : IsName "e.2" :=
    ⟨by decide, List.all_eq_true.1 (by decide +kernel), by decide⟩
  have hspeaker : ∀ word ∈ some "e.2", IsName word := by
    rintro _ ⟨⟩
    exact hname
  have htext : '\r' ∉ rant.toList := by decide +kernel
  have hplain : ¬apostrophes <:+: rant.toList := by decide +kernel
  exact ⟨hspeaker, htext, hplain, (read_spoken_iff hspeaker htext 0).2 hplain⟩

def report : String := "She said '''hello''' to me."

/-- The word between the quotes is read as the text of a line whose speaker is what stands before
it, with the opening quote. -/
theorem not_read_back_report :
    IsName "e" ∧ '\r' ∉ report.toList ∧
      read defaultTabWidth (.ofList (commandText (.dialogue (some "e") report))) =
        .ok [.dialogue (some "e \"She said") "hello"] ∧
      read defaultTabWidth (.ofList (commandText (.dialogue (some "e") report))) ≠
        .ok [.dialogue (some "e") report] := by
  have hlines : lines (commandText (.dialogue (some "e") report)) =
      [commandText (.dialogue (some "e") report)] := by
    decide +kernel
  have hopen : openLine defaultTabWidth 1 (commandText (.dialogue (some "e") report)) =
      .complete ⟨1, 0, .block (some "e \"She said".toList) "hello".toList⟩ := by
    decide +kernel
  have hread : read defaultTabWidth (.ofList (commandText (.dialogue (some "e") report))) =
      .ok [.dialogue (some "e \"She said") "hello"] := by
    rw [read, readOutline_of_complete hlines hopen rfl]
    rfl
  have hname : IsName "e" := ⟨by decide, List.all_eq_true.1 (by decide +kernel), by decide⟩
  refine ⟨hname, by decide +kernel, hread, ?_⟩
  rw [hread]
  simp

end Alone

end StoryScript.Script
