import StoryScript.Proofs.Condition.Equality
import StoryScript.Proofs.Nesting.Renumber
import StoryScript.Proofs.Nesting.Script
import StoryScript.Proofs.Writer.Dialogue

/-! # A script that asks what it has set

A script sets a variable to a quoted text and then asks whether it equals another one. It is read as
just that, whatever stands in the two texts, and the line in the body is read as it would be read
alone.
-/

namespace StoryScript.Script

open Text Entry

/-- A text that can stand between quotes as it is. -/
structure IsQuotable (s : List Char) : Prop where
  unquoted : ∀ c ∈ s, Quoted.isQuote c = false
  oneLine : IsOneLine s

instance (s : List Char) : Decidable (IsQuotable s) :=
  decidable_of_iff (s.all (!Quoted.isQuote ·) = true ∧ IsOneLine s)
    ⟨fun h => ⟨by simpa using h.1, h.2⟩, fun h => ⟨by simpa using h.1, h.2⟩⟩

def inQuotes (s : List Char) : List Char :=
  '"' :: (s ++ ['"'])

def setting (name s : List Char) : List Char :=
  led "$ " (name ++ led " = " (inQuotes s))

def asking (name t : List Char) : List Char :=
  led "if " (equality name t ++ [':'])

/-- The script that sets a variable to one text and asks whether it equals another one, with one
line in the body. -/
def echo (name s t body : List Char) : String :=
  .ofList (setting name s ++ '\n' :: (asking name t ++ '\n' :: body))

section Line

variable {tabWidth : UInt64} {body : List Char} {commands : List Command}

theorem toCommands_nest_singleton {inMenu : Bool} {last : Option String} {p q : Placed}
    (h : p.item = q.item) :
    toCommands (nest inMenu last [p]) = toCommands (nest inMenu last [q]) := by
  cases hheader : p.item.header? inMenu with
  | some header =>
    rw [nest_of_header [] hheader, nest_of_header [] (h ▸ hheader)]
    cases header <;> rfl
  | none =>
    rw [nest_of_leaf [] hheader, nest_of_leaf [] (h ▸ hheader), h]
    cases q.item.leaf? last <;> rfl

/-- Whether a line, wherever it stands outside blocks, adds an item or none, and gives commands if
it is the only line of a body. -/
def Adds (tabWidth : UInt64) (body : List Char) (commands : List Command) (item? : Option Item) :
    Prop :=
  (∀ number, ∃ items : List (Line × Item),
    structuralFrom tabWidth none number [body] = (items.map (·.1), none) ∧
    readItems (items.map (·.1)) = .ok items ∧
    items.map (fun found => (found.1.indent, found.2)) =
      item?.toList.map (measureIndent tabWidth body, ·)) ∧
  ∀ placed : List Placed, placed.map (·.item) = item?.toList →
    toCommands (nest false none placed) = commands

theorem exists_adds_of_complete {content : Content} (hlines : lines body = [body])
    (hopen : ∀ number, openLine tabWidth number body =
      .complete ⟨number, measureIndent tabWidth body, content⟩)
    (h : read tabWidth (.ofList body) = .ok commands) :
    ∃ item, Adds tabWidth body commands (some item) := by
  cases hitem : Line.item ⟨1, measureIndent tabWidth body, content⟩ with
  | error error =>
    simp only [read, readOutline, structural, String.toList_ofList, hlines, structuralFrom,
      hopen, readItems, hitem] at h
    cases h
  | ok item =>
    have hitems : ∀ number,
        Line.item ⟨number, measureIndent tabWidth body, content⟩ = .ok item := by
      intro number
      have hrenumber := @item_renumber (fun _ => number) ⟨1, measureIndent tabWidth body, content⟩
      rwa [hitem] at hrenumber
    refine ⟨item, fun number => ?_, fun placed hplaced => ?_⟩
    · refine ⟨[(⟨number, measureIndent tabWidth body, content⟩, item)], ?_, ?_, rfl⟩
      · simp only [structuralFrom, hopen, List.map_cons, List.map_nil]
      · simp only [List.map_cons, List.map_nil, readItems, hitems]
        rfl
    · obtain ⟨line, rfl, hline⟩ := List.map_eq_singleton_iff.1 hplaced
      rw [read, readOutline_of_complete hlines (hopen 1) hitem, outline_eq_nest] at h
      rw [← Except.ok.inj h]
      exact toCommands_nest_singleton hline

theorem exists_adds_of_read (hlines : lines body = [body])
    (h : read tabWidth (.ofList body) = .ok commands) :
    ∃ item?, Adds tabWidth body commands item? := by
  obtain ⟨opening, hopens, heq⟩ := exists_opens (trim body)
  have hopen := fun number => heq tabWidth number body rfl
  cases hopens with
  | skipped =>
    simp only [read, readOutline, structural, String.toList_ofList, hlines, structuralFrom,
      hopen, readItems] at h
    cases h
    refine ⟨none, fun number => ⟨[], ?_, rfl, rfl⟩, fun placed hplaced => ?_⟩
    · simp only [structuralFrom, hopen, List.map_nil]
    · rw [List.map_eq_nil_iff.1 hplaced, nest_nil]
      rfl
  | statement | block =>
    obtain ⟨item, hadds⟩ := exists_adds_of_complete hlines hopen h
    exact ⟨some item, hadds⟩
  | unfinished =>
    rw [read, readOutline_of_unfinished hlines (hopen 1)] at h
    cases h

end Line

section Lines

variable {tabWidth : UInt64} {name s t : List Char}

theorem isOneLine_equality (hname : IsVariable name) (ht : IsOneLine t) :
    IsOneLine (equality name t) := by
  have hplain : IsOneLine name := Statement.isOneLine_of_not_blank fun c hc =>
    .inr (isBlank_of_isNameChar (hname.plain c hc))
  constructor
  · simp [equality, hplain.1, ht.1]
  · simp [equality, hplain.2, ht.2]

theorem isTidy_inQuotes (hs : IsOneLine s) : IsTidy (inQuotes s) := by
  refine ⟨trim_eq_self_iff.2 ⟨?_, endsPlain_concat (s := '"' :: s) rfl⟩, ?_⟩
  · rintro _ ⟨⟩
    rfl
  · constructor
    · simp [inQuotes, hs.1]
    · simp [inQuotes, hs.2]

theorem text_setting (name s : List Char) :
    Statement.text (.simple (.define (.ofList name) (.ofList (inQuotes s)) none)) =
      setting name s := by
  simp only [Statement.text, Statement.commandText, setting, String.toList_ofList]

theorem text_asking (name t : List Char) :
    Statement.text (.header (.ifBranch (.ofList (equality name t)))) = asking name t := by
  simp only [Statement.text, Statement.headerText, asking, String.toList_ofList]

theorem isWritable_setting (hname : IsVariable name) (hs : IsQuotable s) :
    Statement.IsWritable (.simple (.define (.ofList name) (.ofList (inQuotes s)) none)) := by
  refine ⟨by simpa using hname.nonempty, ?_, ?_⟩
  · rw [String.toList_ofList]
    exact List.all_eq_true.2 hname.plain
  · rw [String.toList_ofList]
    exact isTidy_inQuotes hs.oneLine

theorem isWritable_asking (hname : IsVariable name) (ht : IsQuotable t) :
    Statement.IsWritable (.header (.ifBranch (.ofList (equality name t)))) := by
  refine ⟨?_, ?_⟩
  · rw [String.toList_ofList]
    exact ⟨trim_equality hname t, isOneLine_equality hname ht.oneLine⟩
  · have hlast : (equality name t).getLast? = some '"' := by
      have hconcat : equality name t =
          (name ++ ' ' :: (['=', '='] ++ ' ' :: '"' :: t)) ++ ['"'] := by
        simp [equality]
      rw [hconcat, List.getLast?_concat]
    rw [String.toList_ofList, hlast]
    decide

theorem not_infix_of_count {line : List Char} (hdouble : line.count '"' = 2)
    (hsingle : line.count '\'' = 0) : ∀ delimiter ∈ delimiters, ¬delimiter <:+: line := by
  intro delimiter hdelimiter hwithin
  have hcountDouble := hwithin.sublist.count_le '"'
  have hcountSingle := hwithin.sublist.count_le '\''
  simp only [delimiters, List.mem_cons, List.not_mem_nil, or_false] at hdelimiter
  rcases hdelimiter with rfl | rfl
  · rw [hdouble] at hcountDouble
    exact absurd hcountDouble (by decide)
  · rw [hsingle] at hcountSingle
    exact absurd hcountSingle (by decide)

theorem count_quotes (h : ∀ c ∈ s, Quoted.isQuote c = false) :
    s.count '"' = 0 ∧ s.count '\'' = 0 := by
  constructor
  · exact List.count_eq_zero.2 fun hmem => absurd (h _ hmem) (by decide)
  · exact List.count_eq_zero.2 fun hmem => absurd (h _ hmem) (by decide)

theorem exists_line_of_isWritable {statement : Statement} {line : List Char}
    (h : statement.IsWritable) (hline : statement.text = line)
    (hindent : line.takeWhile isBlank = []) (hdouble : line.count '"' = 2)
    (hsingle : line.count '\'' = 0) (number : Nat) :
    ∃ found : Line, openLine tabWidth number line = .complete found ∧
      found.item = .ok (.statement statement) ∧ found.indent = 0 := by
  subst hline
  have hopen := @openLine_line tabWidth ⟨0, statement⟩ number h
    (not_infix_of_count hdouble hsingle)
  refine ⟨_, hopen, ?_, ?_⟩
  · simp only [Line.item, Statement.read_trim_text h]
  · have hline : (Written.line ⟨0, statement⟩) = statement.text := rfl
    rw [hline, measureIndent, hindent]
    rfl

theorem exists_line_setting (tabWidth : UInt64) (hname : IsVariable name) (hs : IsQuotable s)
    (number : Nat) :
    ∃ found : Line, openLine tabWidth number (setting name s) = .complete found ∧
      found.item = .ok (.statement (.simple (.define (.ofList name) (.ofList (inQuotes s)) none))) ∧
      found.indent = 0 := by
  obtain ⟨hnameDouble, hnameSingle⟩ := count_quotes hname.isQuote_eq_false
  obtain ⟨hdouble, hsingle⟩ := count_quotes hs.unquoted
  refine exists_line_of_isWritable (isWritable_setting hname hs) (text_setting name s) rfl ?_ ?_
    number
  · simp [setting, led, inQuotes, hnameDouble, hdouble]
  · simp [setting, led, inQuotes, hnameSingle, hsingle]

theorem exists_line_asking (tabWidth : UInt64) (hname : IsVariable name) (ht : IsQuotable t)
    (number : Nat) :
    ∃ found : Line, openLine tabWidth number (asking name t) = .complete found ∧
      found.item = .ok (.statement (.header (.ifBranch (.ofList (equality name t))))) ∧
      found.indent = 0 := by
  obtain ⟨hnameDouble, hnameSingle⟩ := count_quotes hname.isQuote_eq_false
  obtain ⟨hdouble, hsingle⟩ := count_quotes ht.unquoted
  refine exists_line_of_isWritable (isWritable_asking hname ht) (text_asking name t) rfl ?_ ?_
    number
  · simp [asking, led, equality, hnameDouble, hdouble]
  · simp [asking, led, equality, hnameSingle, hsingle]

end Lines

section Script

variable {tabWidth : UInt64} {name s t body : List Char} {commands : List Command}

theorem isOneLine_setting (hname : IsVariable name) (hs : IsQuotable s) :
    IsOneLine (setting name s) :=
  text_setting name s ▸ Statement.isOneLine_text (isWritable_setting hname hs)

theorem isOneLine_asking (hname : IsVariable name) (ht : IsQuotable t) :
    IsOneLine (asking name t) :=
  text_asking name t ▸ Statement.isOneLine_text (isWritable_asking hname ht)

theorem lines_echo (hname : IsVariable name) (hs : IsQuotable s) (ht : IsQuotable t)
    (hbody : IsOneLine body) :
    lines (echo name s t body).toList = [setting name s, asking name t, body] := by
  have hsetting := isOneLine_setting hname hs
  have hasking := isOneLine_asking hname ht
  have hreturn : '\r' ∉ setting name s ++ '\n' :: (asking name t ++ '\n' :: body) := by
    simp [hsetting.2, hasking.2, hbody.2]
  have hmark : (setting name s ++ '\n' :: (asking name t ++ '\n' :: body)).head? ≠
      some '\uFEFF' := by
    simp [setting, led]
  rw [echo, String.toList_ofList, lines, unifyLineEnds_eq_self hreturn,
    dropByteOrderMarks_eq_self hmark, List.splitOn_append_cons_self_of_not_mem hsetting.1,
    List.splitOn_append_cons_self_of_not_mem hasking.1, List.splitOn_eq_singleton hbody.1]

theorem lines_of_indented (hbody : IsOneLine body) (hindent : 0 < measureIndent tabWidth body) :
    lines body = [body] := by
  refine lines_of_isOneLine hbody fun hmark => ?_
  obtain ⟨rest, rfl⟩ := List.head?_eq_some_iff.1 hmark
  have hzero : measureIndent tabWidth ('\uFEFF' :: rest) = 0 := by
    rw [measureIndent, List.takeWhile_cons_of_neg (by decide)]
    rfl
  rw [hzero] at hindent
  exact absurd hindent (by decide)

theorem bodyOf_of_indented {item? : Option Item} {items : List (Line × Item)}
    (hindent : 0 < measureIndent tabWidth body)
    (hplaced : items.map (fun found => (found.1.indent, found.2)) =
      item?.toList.map (measureIndent tabWidth body, ·)) :
    bodyOf 0 (items.map (place 0)) = items.map (place 0) ∧
      pastBody 0 (items.map (place 0)) = [] ∧
      (items.map (place 0)).map (·.item) = item?.toList := by
  cases item? with
  | none =>
    rw [List.map_eq_nil_iff.1 hplaced]
    exact ⟨rfl, rfl, rfl⟩
  | some item =>
    obtain ⟨found, rfl, hfound⟩ := List.map_eq_singleton_iff.1 hplaced
    obtain ⟨hfoundIndent, rfl⟩ := Prod.mk.inj hfound
    have hdeeper : 0 < found.1.indent := hfoundIndent ▸ hindent
    simp [bodyOf, pastBody, hdeeper, place]

/-- The script is read as the assignment and the branch, with the commands of the line in its
body. -/
theorem read_echo (hname : IsVariable name) (hs : IsQuotable s) (ht : IsQuotable t)
    (hbody : IsOneLine body) (hindent : 0 < measureIndent tabWidth body)
    (hcommands : read tabWidth (.ofList body) = .ok commands) :
    read tabWidth (echo name s t body) =
      .ok [.define (.ofList name) (.ofList (inQuotes s)) none,
        .ifBranch (.ofList (equality name t)) commands] := by
  obtain ⟨item?, hadds, hnest⟩ := exists_adds_of_read (lines_of_indented hbody hindent) hcommands
  obtain ⟨items, hlines, hitems, hplaced⟩ := hadds (1 + 1 + 1)
  obtain ⟨first, hfirst, hfirstItem, hfirstIndent⟩ :=
    exists_line_setting tabWidth hname hs 1
  obtain ⟨second, hsecond, hsecondItem, hsecondIndent⟩ :=
    exists_line_asking tabWidth hname ht (1 + 1)
  have hstructural : structural tabWidth (echo name s t body).toList =
      (first :: second :: items.map (·.1), none) := by
    rw [structural, lines_echo hname hs ht hbody, structuralFrom]
    simp only [hfirst]
    rw [structuralFrom]
    simp only [hsecond, hlines]
  have hread : readItems (first :: second :: items.map (·.1)) =
      .ok ((first, .statement (.simple (.define (.ofList name) (.ofList (inQuotes s)) none))) ::
        (second, .statement (.header (.ifBranch (.ofList (equality name t))))) :: items) := by
    simp only [readItems, hfirstItem, hsecondItem, hitems]
    rfl
  obtain ⟨hwithin, hpast, hitem⟩ := bodyOf_of_indented hindent hplaced
  have hbodyCommands := hnest _ hitem
  rw [read, readOutline, hstructural]
  simp only [hread, outline_eq_nest, origin, hfirstIndent, List.map_cons]
  rw [nest_of_leaf _ rfl, nest_of_header _ rfl]
  have hsecondPlace : (place 0 (second,
      .statement (.header (.ifBranch (.ofList (equality name t)))))).indent = 0 := by
    rw [place, hsecondIndent, Int64.sub_zero]
  rw [hsecondPlace, hwithin, hpast, nest_nil, ← hbodyCommands]
  rfl

end Script

end StoryScript.Script
