import StoryScript.Proofs.Lines.Blocks

/-! # Statements and blocks by their place

A statement is found on a line exactly if no block is open before that line and the line is
neither blank nor a comment and holds no delimiter. A block is left open at the end exactly if
its delimiter does not stand on a later line.
-/

namespace StoryScript.Script

open Text

/-- A statement stands on the line with an index. The first argument is the delimiter of the block
that is open before all lines. -/
structure StatementAt (open? : Option (List Char)) (lines : List (List Char)) (i : Nat)
    (text : List Char) : Prop where
  outside : openBefore open? lines i = none
  line : lines[i]?.map trim = some text
  structural : IsStructural text
  plain : ∀ delimiter ∈ delimiters, ¬delimiter <:+: text

/-- A block that begins on the line with an index is still open after all lines. The first argument
is the delimiter of the block that is open before all lines. -/
structure UnclosedAt (open? : Option (List Char)) (lines : List (List Char)) (i : Nat)
    (text : List Char) : Prop where
  outside : openBefore open? lines i = none
  line : lines[i]?.map trim = some text
  opens : ∃ line ∈ lines[i]?, ∃ delimiter ∈ leftOpen? line,
    ∀ later ∈ lines.drop (i + 1), ¬delimiter <:+: later

/-- A block begins on the line with an index, after a text on the same line. The first argument is
the delimiter of the block that is open before all lines. -/
structure BlockAt (open? : Option (List Char)) (lines : List (List Char)) (i : Nat)
    (before : List Char) : Prop where
  outside : openBefore open? lines i = none
  begins : ∃ line ∈ lines[i]?, IsStructural (trim line) ∧
    ∃ delimiter rest, cutAtDelimiter? (trim line) = some (delimiter, before, rest)

section Places

variable {open? : Option (List Char)} {line text : List Char} {lines : List (List Char)} {i : Nat}

theorem statementAt_zero_iff :
    StatementAt open? (line :: lines) 0 text ↔
      open? = none ∧ trim line = text ∧ IsStructural text ∧
        ∀ delimiter ∈ delimiters, ¬delimiter <:+: text := by
  constructor
  · rintro ⟨houtside, hline, hstructural, hplain⟩
    exact ⟨houtside, Option.some.inj hline, hstructural, hplain⟩
  · rintro ⟨houtside, rfl, hstructural, hplain⟩
    exact ⟨houtside, rfl, hstructural, hplain⟩

theorem statementAt_succ_iff :
    StatementAt open? (line :: lines) (i + 1) text ↔
      StatementAt (openAfter open? line) lines i text := by
  constructor
  · rintro ⟨houtside, hline, hstructural, hplain⟩
    exact ⟨houtside, hline, hstructural, hplain⟩
  · rintro ⟨houtside, hline, hstructural, hplain⟩
    exact ⟨houtside, hline, hstructural, hplain⟩

theorem not_statementAt_nil : ¬StatementAt open? [] i text :=
  fun h => nomatch h.line

theorem unclosedAt_zero_iff :
    UnclosedAt open? (line :: lines) 0 text ↔
      open? = none ∧ trim line = text ∧
        ∃ delimiter, leftOpen? line = some delimiter ∧
          ∀ later ∈ lines, ¬delimiter <:+: later := by
  constructor
  · rintro ⟨houtside, hline, _, ⟨⟩, delimiter, hopen, hlater⟩
    exact ⟨houtside, Option.some.inj hline, delimiter, hopen, hlater⟩
  · rintro ⟨houtside, rfl, delimiter, hopen, hlater⟩
    exact ⟨houtside, rfl, line, rfl, delimiter, hopen, hlater⟩

theorem unclosedAt_succ_iff :
    UnclosedAt open? (line :: lines) (i + 1) text ↔
      UnclosedAt (openAfter open? line) lines i text := by
  constructor
  · rintro ⟨houtside, hline, hopens⟩
    exact ⟨houtside, hline, hopens⟩
  · rintro ⟨houtside, hline, hopens⟩
    exact ⟨houtside, hline, hopens⟩

theorem not_unclosedAt_nil : ¬UnclosedAt open? [] i text :=
  fun h => nomatch h.line

theorem BlockAt.succ {before : List Char} (h : BlockAt (openAfter open? line) lines i before) :
    BlockAt open? (line :: lines) (i + 1) before :=
  ⟨h.outside, h.begins⟩

theorem exists_place_iff {number n : Nat} {p : Nat → Prop} :
    (∃ i, n = number + i ∧ p i) ↔ n = number ∧ p 0 ∨ ∃ i, n = number + 1 + i ∧ p (i + 1) := by
  constructor
  · rintro ⟨_ | i, rfl, h⟩
    · exact .inl ⟨rfl, h⟩
    · exact .inr ⟨i, by omega, h⟩
  · rintro (⟨rfl, h⟩ | ⟨i, rfl, h⟩)
    · exact ⟨0, rfl, h⟩
    · exact ⟨i + 1, by omega, h⟩

end Places

section Trimmed

variable {open? : Option (List Char)} {lines lines' : List (List Char)} {i : Nat}
  {text : List Char}

theorem map_trim_getElem?_eq (h : lines.map trim = lines'.map trim) (i : Nat) :
    lines[i]?.map trim = lines'[i]?.map trim := by
  rw [← List.getElem?_map, h, List.getElem?_map]

/-- Where statements stand is the same for lines that are the same without the blanks around
them. -/
theorem StatementAt.of_map_trim_eq (h : lines.map trim = lines'.map trim)
    (hat : StatementAt none lines i text) : StatementAt none lines' i text where
  outside := by
    rw [← openBefore_eq_of_map_trim_eq (by simp) h]
    exact hat.outside
  line := by
    rw [← map_trim_getElem?_eq h]
    exact hat.line
  structural := hat.structural
  plain := hat.plain

theorem UnclosedAt.of_map_trim_eq (h : lines.map trim = lines'.map trim)
    (hat : UnclosedAt none lines i text) : UnclosedAt none lines' i text where
  outside := by
    rw [← openBefore_eq_of_map_trim_eq (by simp) h]
    exact hat.outside
  line := by
    rw [← map_trim_getElem?_eq h]
    exact hat.line
  opens := by
    obtain ⟨line, hline, delimiter, hopen, hlater⟩ := hat.opens
    have hmem := mem_delimiters_of_leftOpen? hopen
    have htrim := map_trim_getElem?_eq h i
    rw [hline, Option.map_some] at htrim
    obtain ⟨line', hline', heq⟩ := Option.map_eq_some_iff.1 htrim.symm
    refine ⟨line', hline', delimiter, ?_, fun later' hlater' => ?_⟩
    · rw [Option.mem_def, leftOpen?, heq]
      exact hopen
    · have hdrop := congrArg (List.drop (i + 1)) h
      rw [← List.map_drop, ← List.map_drop] at hdrop
      have hmap : trim later' ∈ (lines.drop (i + 1)).map trim := by
        rw [hdrop]
        exact List.mem_map_of_mem hlater'
      obtain ⟨later, hmem', hlatereq⟩ := List.mem_map.1 hmap
      rw [← infix_trim_iff_of_mem_delimiters hmem, ← hlatereq,
        infix_trim_iff_of_mem_delimiters hmem]
      exact hlater later hmem'

end Trimmed

/-! ## One line after another -/

/-- What one line adds to the structural lines, and the block that is open before and after it. -/
inductive Reads (tabWidth : UInt64) (number : Nat) (line : List Char) :
    Option OpenBlock → List Line → Option OpenBlock → Prop
  | skipped (hskip : ¬IsStructural (trim line)) : Reads tabWidth number line none [] none
  | statement (hstructural : IsStructural (trim line))
      (hplain : ∀ delimiter ∈ delimiters, ¬delimiter <:+: trim line) :
      Reads tabWidth number line none
        [⟨number, measureIndent tabWidth line, .statement (trim line)⟩] none
  | block {delimiter before rest inside after : List Char} (hstructural : IsStructural (trim line))
      (hcut : cutAtDelimiter? (trim line) = some (delimiter, before, rest))
      (hinside : cut? delimiter rest = some (inside, after)) (hclosed : leftOpen? line = none) :
      Reads tabWidth number line none
        [⟨number, measureIndent tabWidth line, .block (nonBlank? before) (trim inside)⟩] none
  | opens {delimiter before rest : List Char} (hstructural : IsStructural (trim line))
      (hcut : cutAtDelimiter? (trim line) = some (delimiter, before, rest))
      (hopen : leftOpen? line = some delimiter) :
      Reads tabWidth number line none []
        (some ⟨number, measureIndent tabWidth line, nonBlank? before, delimiter, trim line,
          [trim rest]⟩)
  | closes {block : OpenBlock} {last : List Char}
      (hcontains : contains line block.delimiter = true) :
      Reads tabWidth number line (some block) [block.close last] none
  | continues {block : OpenBlock} (hcontains : contains line block.delimiter = false) :
      Reads tabWidth number line (some block) [] (some (block.extend line))

section Reads

variable {tabWidth : UInt64} {block? next : Option OpenBlock} {number n : Nat}
  {line text : List Char} {lines : List (List Char)} {found : List Line}

theorem exists_reads (tabWidth : UInt64) (block? : Option OpenBlock) (number : Nat)
    (line : List Char) :
    ∃ found next, Reads tabWidth number line block? found next ∧ ∀ lines,
      structuralFrom tabWidth block? number (line :: lines) =
        (found ++ (structuralFrom tabWidth next (number + 1) lines).1,
          (structuralFrom tabWidth next (number + 1) lines).2) := by
  cases block? with
  | none =>
    obtain ⟨opening, hopens, heq⟩ := exists_opens (trim line)
    have hline := heq tabWidth number line rfl
    have hleft := hopens.leftOpen?_eq number 0
    cases hopens with
    | skipped hskip =>
      refine ⟨_, _, .skipped hskip, fun lines => ?_⟩
      simp only [structuralFrom, hline, List.nil_append]
    | statement hstructural hplain =>
      refine ⟨_, _, .statement hstructural hplain, fun lines => ?_⟩
      simp only [structuralFrom, hline, List.singleton_append]
    | block hstructural hcut hinside =>
      refine ⟨_, _, .block hstructural hcut hinside hleft, fun lines => ?_⟩
      simp only [structuralFrom, hline, List.singleton_append]
    | unfinished hstructural hcut hrest =>
      refine ⟨_, _, .opens hstructural hcut hleft, fun lines => ?_⟩
      simp only [structuralFrom, hline, List.nil_append]
  | some block =>
    cases hcut : cut? block.delimiter line with
    | some parts =>
      have hcontains : contains line block.delimiter = true := by rw [contains, hcut]; rfl
      refine ⟨[block.close parts.1], none, .closes hcontains, fun lines => ?_⟩
      simp only [structuralFrom, hcut, List.singleton_append]
    | none =>
      have hcontains : contains line block.delimiter = false := by rw [contains, hcut]; rfl
      refine ⟨_, _, .continues hcontains, fun lines => ?_⟩
      simp only [structuralFrom, hcut, List.nil_append]

theorem Reads.openAfter_eq (h : Reads tabWidth number line block? found next) :
    openAfter (block?.map (·.delimiter)) line = next.map (·.delimiter) := by
  cases h with
  | skipped hskip => exact leftOpen?_of_not_structural hskip
  | statement hstructural hplain => exact leftOpen?_of_plain hplain
  | block hstructural hcut hinside hclosed => exact hclosed
  | opens hstructural hcut hopen => exact hopen
  | closes hcontains => exact if_pos hcontains
  | continues hcontains => exact if_neg (Bool.eq_false_iff.1 hcontains)

theorem structuralFrom_append (tabWidth : UInt64) (block? : Option OpenBlock) (number : Nat)
    (lines later : List (List Char)) :
    structuralFrom tabWidth block? number (lines ++ later) =
      ((structuralFrom tabWidth block? number lines).1 ++
          (structuralFrom tabWidth (structuralFrom tabWidth block? number lines).2
            (number + lines.length) later).1,
        (structuralFrom tabWidth (structuralFrom tabWidth block? number lines).2
          (number + lines.length) later).2) := by
  induction lines generalizing block? number with
  | nil => simp [structuralFrom]
  | cons line lines ih =>
    obtain ⟨found, next, -, heq⟩ := exists_reads tabWidth block? number line
    rw [List.cons_append, heq, heq, ih, List.append_assoc, List.length_cons, Nat.add_right_comm,
      Nat.add_assoc]

theorem delimiter_structuralFrom (tabWidth : UInt64) (block? : Option OpenBlock) (number : Nat)
    (lines : List (List Char)) :
    (structuralFrom tabWidth block? number lines).2.map (·.delimiter) =
      openBefore (block?.map (·.delimiter)) lines lines.length := by
  induction lines generalizing block? number with
  | nil => rfl
  | cons line lines ih =>
    obtain ⟨found, next, hreads, heq⟩ := exists_reads tabWidth block? number line
    rw [heq, List.length_cons, openBefore_cons_succ, hreads.openAfter_eq, ih]

theorem structuralFrom_eq_none (h : openBefore none lines lines.length = none) :
    (structuralFrom tabWidth none number lines).2 = none := by
  have hdelimiter := delimiter_structuralFrom tabWidth none number lines
  rwa [Option.map_none, h, Option.map_eq_none_iff] at hdelimiter

theorem Reads.statement_iff (h : Reads tabWidth number line block? found next)
    (lines : List (List Char)) :
    (∃ here ∈ found, here.number = n ∧ here.content = .statement text) ↔
      n = number ∧ StatementAt (block?.map (·.delimiter)) (line :: lines) 0 text := by
  rw [statementAt_zero_iff]
  cases h with
  | skipped hskip =>
    constructor
    · rintro ⟨_, ⟨⟩, -⟩
    · rintro ⟨-, -, rfl, hstructural, -⟩
      exact absurd hstructural hskip
  | statement hstructural hplain =>
    constructor
    · rintro ⟨here, hmem, rfl, htext⟩
      obtain rfl := List.mem_singleton.1 hmem
      cases htext
      exact ⟨rfl, rfl, rfl, hstructural, hplain⟩
    · rintro ⟨rfl, -, rfl, -, -⟩
      exact ⟨_, List.mem_singleton_self _, rfl, rfl⟩
  | block hstructural hcut hinside hclosed =>
    constructor
    · rintro ⟨here, hmem, rfl, htext⟩
      obtain rfl := List.mem_singleton.1 hmem
      cases htext
    · rintro ⟨-, -, rfl, -, hplain⟩
      rw [cutAtDelimiter?_eq_none_iff.2 hplain] at hcut
      cases hcut
  | opens hstructural hcut hopen =>
    constructor
    · rintro ⟨_, ⟨⟩, -⟩
    · rintro ⟨-, -, rfl, -, hplain⟩
      rw [leftOpen?_of_plain hplain] at hopen
      cases hopen
  | closes hcontains =>
    constructor
    · rintro ⟨here, hmem, rfl, htext⟩
      obtain rfl := List.mem_singleton.1 hmem
      cases htext
    · rintro ⟨-, ⟨⟩, -⟩
  | continues hcontains =>
    constructor
    · rintro ⟨_, ⟨⟩, -⟩
    · rintro ⟨-, ⟨⟩, -⟩

/-- The statements among the structural lines are those that stand on the lines outside blocks. -/
theorem statement_mem_structuralFrom_iff :
    (∃ here ∈ (structuralFrom tabWidth block? number lines).1,
      here.number = n ∧ here.content = .statement text) ↔
      ∃ i, n = number + i ∧ StatementAt (block?.map (·.delimiter)) lines i text := by
  induction lines generalizing block? number with
  | nil =>
    constructor
    · rintro ⟨_, hmem, -⟩
      simp [structuralFrom] at hmem
    · rintro ⟨i, -, hat⟩
      exact absurd hat not_statementAt_nil
  | cons line lines ih =>
    obtain ⟨found, next, hreads, heq⟩ := exists_reads tabWidth block? number line
    simp only [heq, List.mem_append, or_and_right, exists_or]
    rw [exists_place_iff, ih, ← hreads.openAfter_eq, hreads.statement_iff lines]
    simp only [statementAt_succ_iff]

theorem Reads.unclosed_iff (h : Reads tabWidth number line block? found next)
    (lines : List (List Char)) :
    (∃ block, next = some block ∧ block.number = n ∧ block.opening = text ∧
      ∀ later ∈ lines, contains later block.delimiter = false) ↔
      (∃ block, block? = some block ∧ block.number = n ∧ block.opening = text ∧
        ∀ later ∈ line :: lines, contains later block.delimiter = false) ∨
      n = number ∧ UnclosedAt (block?.map (·.delimiter)) (line :: lines) 0 text := by
  rw [unclosedAt_zero_iff]
  have hclosed : leftOpen? line = none → block? = none → next = none →
      ((∃ block, next = some block ∧ block.number = n ∧ block.opening = text ∧
        ∀ later ∈ lines, contains later block.delimiter = false) ↔
        (∃ block, block? = some block ∧ block.number = n ∧ block.opening = text ∧
          ∀ later ∈ line :: lines, contains later block.delimiter = false) ∨
        n = number ∧ (block?.map (·.delimiter) = none ∧ trim line = text ∧
          ∃ delimiter, leftOpen? line = some delimiter ∧
            ∀ later ∈ lines, ¬delimiter <:+: later)) := by
    rintro hleft rfl rfl
    simp [hleft]
  cases h with
  | skipped hskip => exact hclosed (leftOpen?_of_not_structural hskip) rfl rfl
  | statement hstructural hplain => exact hclosed (leftOpen?_of_plain hplain) rfl rfl
  | block hstructural hcut hinside hleft => exact hclosed hleft rfl rfl
  | @opens delimiter before rest hstructural hcut hopen =>
    have hne := ne_nil_of_mem_delimiters (mem_delimiters_of_leftOpen? hopen)
    constructor
    · rintro ⟨_, ⟨⟩, rfl, rfl, hlater⟩
      refine .inr ⟨rfl, rfl, rfl, delimiter, hopen, fun later hmem hwithin => ?_⟩
      rw [← contains_iff hne, hlater later hmem] at hwithin
      cases hwithin
    · rintro (⟨_, ⟨⟩, -⟩ | ⟨rfl, -, rfl, d, hd, hlater⟩)
      rw [hopen] at hd
      cases hd
      refine ⟨_, rfl, rfl, rfl, fun later hmem => ?_⟩
      rw [Bool.eq_false_iff, Ne, contains_iff hne]
      exact hlater later hmem
  | @closes block last hcontains =>
    constructor
    · rintro ⟨_, ⟨⟩, -⟩
    · rintro (⟨_, ⟨⟩, -, -, hlater⟩ | ⟨-, ⟨⟩, -⟩)
      rw [hlater line List.mem_cons_self] at hcontains
      cases hcontains
  | @continues block hcontains =>
    constructor
    · rintro ⟨_, ⟨⟩, rfl, rfl, hlater⟩
      exact .inl ⟨block, rfl, rfl, rfl, List.forall_mem_cons.2 ⟨hcontains, hlater⟩⟩
    · rintro (⟨_, ⟨⟩, rfl, rfl, hlater⟩ | ⟨-, ⟨⟩, -⟩)
      exact ⟨_, rfl, rfl, rfl, (List.forall_mem_cons.1 hlater).2⟩

/-- The block that is still open at the end was open before all lines, or it begins on one of
them. -/
theorem unclosed_structuralFrom_iff :
    (∃ block, (structuralFrom tabWidth block? number lines).2 = some block ∧
      block.number = n ∧ block.opening = text) ↔
      (∃ block, block? = some block ∧ block.number = n ∧ block.opening = text ∧
        ∀ later ∈ lines, contains later block.delimiter = false) ∨
      ∃ i, n = number + i ∧ UnclosedAt (block?.map (·.delimiter)) lines i text := by
  induction lines generalizing block? number with
  | nil =>
    have hnone : ¬∃ i, n = number + i ∧ UnclosedAt (block?.map (·.delimiter)) [] i text := by
      rintro ⟨i, -, hat⟩
      exact not_unclosedAt_nil hat
    simp [structuralFrom, hnone]
  | cons line lines ih =>
    obtain ⟨found, next, hreads, heq⟩ := exists_reads tabWidth block? number line
    simp only [heq]
    rw [exists_place_iff, ih, ← hreads.openAfter_eq, hreads.unclosed_iff lines, or_assoc]
    simp only [unclosedAt_succ_iff]

/-- A block that ends on a line or is open after it was open before it or begins on it, and is
spoken by what stands before it there. -/
theorem Reads.exists_blockAt (h : Reads tabWidth number line block? found next)
    (speaker : Option (List Char)) (lines : List (List Char))
    (hspeaker : (∃ here ∈ found, ∃ text, here.content = .block speaker text) ∨
      ∃ block ∈ next, block.speaker = speaker) :
    (∃ block ∈ block?, block.speaker = speaker) ∨
      ∃ before, BlockAt (block?.map (·.delimiter)) (line :: lines) 0 before ∧
        speaker = nonBlank? before := by
  cases h with
  | skipped hskip =>
    obtain ⟨_, ⟨⟩, -⟩ | ⟨_, ⟨⟩, -⟩ := hspeaker
  | statement hstructural hplain =>
    obtain ⟨here, hmem, text, hcontent⟩ | ⟨_, ⟨⟩, -⟩ := hspeaker
    obtain rfl := List.mem_singleton.1 hmem
    cases hcontent
  | block hstructural hcut hinside hclosed =>
    obtain ⟨here, hmem, text, hcontent⟩ | ⟨_, ⟨⟩, -⟩ := hspeaker
    obtain rfl := List.mem_singleton.1 hmem
    cases hcontent
    exact .inr ⟨_, ⟨rfl, line, rfl, hstructural, _, _, hcut⟩, rfl⟩
  | opens hstructural hcut hopen =>
    obtain ⟨_, ⟨⟩, -⟩ | ⟨_, ⟨⟩, rfl⟩ := hspeaker
    exact .inr ⟨_, ⟨rfl, line, rfl, hstructural, _, _, hcut⟩, rfl⟩
  | closes hcontains =>
    obtain ⟨here, hmem, text, hcontent⟩ | ⟨_, ⟨⟩, -⟩ := hspeaker
    obtain rfl := List.mem_singleton.1 hmem
    cases hcontent
    exact .inl ⟨_, rfl, rfl⟩
  | continues hcontains =>
    obtain ⟨_, ⟨⟩, -⟩ | ⟨_, ⟨⟩, rfl⟩ := hspeaker
    exact .inl ⟨_, rfl, rfl⟩

/-- A block among the structural lines was open before all lines or begins on one of them, and is
spoken by what stands before it there. -/
theorem exists_blockAt_of_mem_structuralFrom {here : Line} {speaker : Option (List Char)}
    (h : here ∈ (structuralFrom tabWidth block? number lines).1)
    (hcontent : here.content = .block speaker text) :
    (∃ block ∈ block?, block.speaker = speaker) ∨
      ∃ i before, BlockAt (block?.map (·.delimiter)) lines i before ∧
        speaker = nonBlank? before := by
  induction lines generalizing block? number with
  | nil => simp [structuralFrom] at h
  | cons line lines ih =>
    obtain ⟨found, next, hreads, heq⟩ := exists_reads tabWidth block? number line
    simp only [heq, List.mem_append] at h
    have hline := hreads.exists_blockAt speaker lines
    rcases h with hfound | hlater
    · rcases hline (.inl ⟨here, hfound, text, hcontent⟩) with hopen | ⟨before, hat⟩
      · exact .inl hopen
      · exact .inr ⟨0, before, hat⟩
    · rcases ih hlater with hopen | ⟨i, before, hat, rfl⟩
      · rcases hline (.inr hopen) with hopen | ⟨before, hat⟩
        · exact .inl hopen
        · exact .inr ⟨0, before, hat⟩
      · rw [← hreads.openAfter_eq] at hat
        exact .inr ⟨i + 1, before, hat.succ, rfl⟩

end Reads

theorem statement_mem_structural_iff {tabWidth : UInt64} {s text : List Char} {n : Nat} :
    (∃ here ∈ (structural tabWidth s).1, here.number = n ∧ here.content = .statement text) ↔
      ∃ i, n = i + 1 ∧ StatementAt none (lines s) i text := by
  simp only [Nat.add_comm _ 1]
  exact statement_mem_structuralFrom_iff

theorem unclosed_structural_iff {tabWidth : UInt64} {s text : List Char} {n : Nat} :
    (∃ block, (structural tabWidth s).2 = some block ∧ block.number = n ∧ block.opening = text) ↔
      ∃ i, n = i + 1 ∧ UnclosedAt none (lines s) i text := by
  simp only [Nat.add_comm _ 1]
  rw [structural, unclosed_structuralFrom_iff]
  simp

theorem exists_blockAt_of_mem_structural {tabWidth : UInt64} {s text : List Char} {here : Line}
    {speaker : Option (List Char)} (h : here ∈ (structural tabWidth s).1)
    (hcontent : here.content = .block speaker text) :
    ∃ i before, BlockAt none (lines s) i before ∧ speaker = nonBlank? before :=
  (exists_blockAt_of_mem_structuralFrom h hcontent).resolve_left nofun

end StoryScript.Script
