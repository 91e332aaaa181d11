import Mathlib.Data.List.DropRight
import Mathlib.Data.String.Basic
import StoryScript.Proofs.Call.Completion
import StoryScript.Proofs.Call.Reader
import StoryScript.Proofs.Text.Trim

/-! # Where the reader of calls stops

A text that is no call is blamed at a place where it could still have become one. Each reader
stops where the part that it reads could have been completed: an open string by its quote, a
number by a digit, arguments by the closing parenthesis. A part stands in a greater one, so by
induction on the fuel for arguments the whole call could have been completed there.

The message points to that place by the number of bytes in front of it, or by its line and column
if the text has several lines.
-/

namespace StoryScript.Call

open Text

variable {s : List Char} {fault : Fault}

section Values

theorem breaksOff_of_readLiteral? (h : readLiteral? s = some (.error fault)) :
    BreaksOff IsExpr s fault.unread := by
  cases s with
  | nil => cases h
  | cons quote s =>
    rw [readLiteral?] at h
    split at h
    · rename_i hquote
      have hbody : (∃ reason, Quoted.readBody quote s = .error reason) ∧ fault.unread = [] := by
        cases hread : Quoted.readBody quote s with
        | ok found =>
          rw [hread] at h
          cases h
        | error reason =>
          rw [hread] at h
          cases reason <;> cases h <;> exact ⟨⟨_, rfl⟩, rfl⟩
      obtain ⟨⟨reason, hread⟩, hunread⟩ := hbody
      obtain ⟨completion, content, hunits⟩ := Quoted.exists_units_of_readBody_error hread
      refine ⟨quote :: s, by rw [hunread, List.append_nil], completion ++ [quote], ?_⟩
      intro other _
      have htext : Derives (quote :: ((s ++ completion) ++ quote :: other))
          (.expr (.text (.ofList content))) other := .text hquote hunits
      exact ⟨_, by simpa using htext⟩
    · cases h

theorem breaksOff_of_read {unread : List Char} (h : Numeral.read s = .error unread) :
    BreaksOff IsExpr s unread := by
  obtain ⟨before, n, rfl, hdenotes⟩ := Numeral.exists_denotes_of_read_error h
  refine ⟨before, rfl, ['1'], fun other _ => ?_⟩
  have hnumber : Derives ((before ++ ['1']) ++ other) (.expr (.number n)) other :=
    .number hdenotes
  exact ⟨.number n, by simpa using hnumber⟩

end Values

section Arguments

/-- Whether a reader of arguments stops only where they could have been completed. -/
def BlamesArgs (readArgs : List Char → Except Fault (List (Arg Expr) × List Char)) : Prop :=
  ∀ s fault, readArgs s = .error fault → BreaksOff ClosesArgs s fault.unread

variable {readArgs : List Char → Except Fault (List (Arg Expr) × List Char)}

theorem BlamesArgs.breaksOff_expr (hblames : BlamesArgs readArgs)
    (h : readExpr readArgs s = .error fault) : BreaksOff IsExpr s fault.unread := by
  rw [readExpr] at h
  split at h
  · cases h
  · rename_i hliteral
    cases h
    exact breaksOff_of_readLiteral? hliteral
  · split at h
    · rename_i name afterName hname
      split at h
      · cases h
      · rename_i inside hopen
        split at h
        · cases h
        · rename_i found hargs
          cases h
          have hinside := hblames _ _ hargs
          exact breaksOff_expr_of_call (breaksOff_call_of_args (name_of_readName? hname)
            (symbol_of_afterSymbol? hopen) hinside)
    · split at h
      · cases h
      · rename_i hread
        cases h
        exact breaksOff_of_read hread

theorem BlamesArgs.breaksOff_arg (hblames : BlamesArgs readArgs)
    (h : readArg readArgs s = .error fault) : BreaksOff IsArg s fault.unread := by
  rw [readArg] at h
  split at h
  · rename_i name valueText hkeyword
    obtain ⟨afterName, hname, hequals⟩ := exists_name_of_readKeyword? hkeyword
    exact breaksOff_keyword_of_expr hname hequals
      (hblames.breaksOff_expr (eq_error_of_map_eq_error h))
  · exact breaksOff_arg_of_expr (hblames.breaksOff_expr (eq_error_of_map_eq_error h))

theorem BlamesArgs.breaksOff_more (hblames : BlamesArgs readArgs)
    (h : readMore readArgs s = .error fault) : BreaksOff ClosesMore s fault.unread := by
  rw [readMore] at h
  split at h
  · rename_i next hcomma
    exact breaksOff_more_of_args (symbol_of_afterSymbol? hcomma) (hblames _ _ h)
  · split at h
    · cases h
    · cases h
      obtain ⟨blanks, hblanks, hs⟩ := exists_blanks s
      exact ⟨blanks, hs.symm, [')'], fun other _ => ⟨[], _, .noMore, .behind hblanks other⟩⟩

theorem blamesArgs_readArgsWithin (fuel : Nat) : BlamesArgs (readArgsWithin fuel) := by
  induction fuel with
  | zero =>
    intro s fault h
    cases h
    exact ⟨[], rfl, [')'], fun other _ => ⟨[], _, .noArgs, .here other⟩⟩
  | succ fuel ih =>
    intro s fault h
    rw [readArgsWithin_succ] at h
    split at h
    · cases h
    · split at h
      · rename_i harg
        cases h
        exact breaksOff_args_of_arg (ih.breaksOff_arg harg)
      · rename_i arg afterArg harg
        exact breaksOff_args_of_more ((readsArgs_readArgsWithin fuel).derives_arg harg)
          (ih.breaksOff_more (eq_error_of_map_eq_error h))

end Arguments

/-- A call stops being read where it could have been completed. -/
theorem breaksOff_of_readTrimmed (h : readTrimmed s = .error fault) :
    BreaksOff IsCall s fault.unread := by
  rw [readTrimmed] at h
  split at h
  · cases h
    refine ⟨[], rfl, ['_', '(', ')'], fun other _ => ⟨⟨.ofList ['_'], []⟩, ?_⟩⟩
    have hopen : Symbol '(' ('(' :: ')' :: other) (')' :: other) := .here _
    have hname : Name (['_'] ++ '(' :: ')' :: other) ['_'] ('(' :: ')' :: other) :=
      .mk (.inr rfl) (List.forall_mem_nil _) (hopen.endsName (by decide))
    exact .call hname hopen .noArgs (.here other)
  · rename_i name afterName hname
    split at h
    · cases h
      obtain ⟨blanks, hblanks, hafter⟩ := exists_blanks afterName
      rw [← hafter] at hname
      exact breaksOff_call_of_name (name_of_readName? hname) hblanks
    · rename_i inside hopen
      split at h
      · rename_i hargs
        cases h
        exact breaksOff_call_of_args (name_of_readName? hname) (symbol_of_afterSymbol? hopen)
          (blamesArgs_readArgsWithin _ _ _ hargs)
      · cases h
      · rename_i args unread _ hargs
        cases h
        have hcall := (readsArgs_readArgsWithin _).derives_call hname hopen hargs
        obtain ⟨text, hs, htext⟩ := hcall.exists_text
        exact ⟨text, hs, [], fun other hother => ⟨_, htext other hother⟩⟩

section Trim

theorem isBlank_of_mem_spaces {c : Char} (h : c ∈ spaces) : isBlank c = true := by
  simp only [spaces, List.mem_cons, List.not_mem_nil, or_false] at h
  rcases h with rfl | rfl | rfl | rfl <;> decide

/-- A text that is a call ends with the closing parenthesis and blanks, and is a call without these
blanks. -/
theorem exists_closing_of_derives {call : Call} (h : Derives s (.call call) []) :
    ∃ text blanks, s = (text ++ [')']) ++ blanks ∧ (∀ c ∈ blanks, c ∈ spaces) ∧
      Derives (text ++ [')']) (.call call) [] := by
  cases h with
  | @call _ name _ _ _ _ _ hname hopen hargs hclose =>
    obtain rfl := hname.eq_append
    obtain ⟨opening, rfl, hopening⟩ := hopen.exists_text
    obtain ⟨inside, rfl, hinside⟩ := hargs.exists_text
    obtain @⟨before, after, _, hbefore, hafter⟩ := hclose
    have hclose : Symbol ')' (before ++ [')']) [] := .behind hbefore []
    have hargs := hinside _ (hclose.endsName (by decide))
    have hopen := hopening (inside ++ (before ++ [')']))
    have hcall := Derives.call (hname.append_symbol hopen (by decide)) hopen hargs hclose
    refine ⟨name ++ (opening ++ (inside ++ before)), after, by simp, hafter, ?_⟩
    simpa using hcall

theorem exists_cons_of_call {call : Call} {rest : List Char} (h : Derives s (.call call) rest) :
    ∃ first more, s = first :: more ∧ isNameChar first = true := by
  cases h with
  | call hname => exact hname.exists_cons

theorem derives_trim {call : Call} (h : Derives s (.call call) []) :
    Derives (trim s) (.call call) [] := by
  obtain ⟨text, blanks, rfl, hblanks, hcall⟩ := exists_closing_of_derives h
  have hhead : ∀ c ∈ (text ++ [')']).head?, isBlank c = false := by
    obtain ⟨first, more, heq, hfirst⟩ := exists_cons_of_call hcall
    rw [heq]
    rintro _ ⟨⟩
    exact isBlank_of_isNameChar hfirst
  have hlast : EndsPlain (text ++ [')']) := endsPlain_concat (by decide)
  rw [trim_append_right_of_blank fun c hc => isBlank_of_mem_spaces (hblanks c hc),
    trim_eq_self_iff.2 ⟨hhead, hlast⟩]
  exact hcall

theorem read_eq_ok_of_derives {call : Call} (h : Derives s (.call call) []) :
    Call.read (.ofList s) = .ok call := by
  have hread := readTrimmed_eq_ok_iff.2 (derives_trim h)
  rw [Call.read, String.toList_ofList]
  simp only [hread]

end Trim

section Messages

variable {before unread : List Char}

theorem byteCount_eq_utf8ByteSize (s : List Char) :
    byteCount s = (String.ofList s).utf8ByteSize := by
  have hcount : ∀ count, s.foldl (fun count c => count + c.utf8Size) count =
      count + (String.ofList s).utf8ByteSize := by
    induction s with
    | nil => intro count; simp
    | cons c s ih =>
      intro count
      rw [List.foldl_cons, ih, String.utf8ByteSize_ofList, String.utf8ByteSize_ofList,
        String.utf8Len_cons]
      omega
  rw [byteCount, hcount, Nat.zero_add]

/-- A text is in two parts, the second of which is its last line. -/
structure IsLastLine (earlier line s : List Char) : Prop where
  eq_append : s = earlier ++ line
  ends : ∀ c ∈ earlier.getLast?, c = '\n'
  line : '\n' ∉ line

theorem isLastLine_splitLastLine (s : List Char) :
    IsLastLine (splitLastLine s).1 (splitLastLine s).2 s := by
  have hsplit : s.rdropWhile (· != '\n') ++ s.rtakeWhile (· != '\n') = s :=
    List.rdropWhile_append_rtakeWhile
  have hearlier : (splitLastLine s).1 = s.rdropWhile (· != '\n') := by
    have hlength := congrArg List.length hsplit
    rw [List.length_append] at hlength
    have htake : (splitLastLine s).1 = s.take (s.rdropWhile (· != '\n')).length :=
      congrArg s.take (Nat.sub_eq_of_eq_add hlength.symm)
    rw [htake]
    exact (List.prefix_iff_eq_take.1 (List.rdropWhile_prefix _ _)).symm
  have hline : (splitLastLine s).2 = s.rtakeWhile (· != '\n') := rfl
  rw [hearlier, hline]
  refine ⟨hsplit.symm, fun c hc => ?_, fun hmem => ?_⟩
  · obtain ⟨hne, rfl⟩ := List.mem_getLast?_eq_getLast hc
    simpa using List.rdropWhile_last_not _ _ hne
  · simpa using List.mem_rtakeWhile_imp hmem

/-- The column of a place behind the start of its line. It counts characters, but bytes in front of
a character of several bytes. -/
inductive IsColumn (line unread : List Char) : Nat → Prop where
  | characters (h : ∀ c ∈ unread.head?, c.utf8Size = 1) : IsColumn line unread line.length
  | bytes (h : ∃ c ∈ unread.head?, c.utf8Size ≠ 1) : IsColumn line unread (byteCount line)

/-- Whether a message shows where a text is faulty, between its two parts. -/
inductive PointsTo (before unread message : List Char) : Prop where
  /-- Under a text of one line stands a mark, after as many blanks as there are bytes before the
  place. -/
  | line (hline : '\n' ∉ before ++ unread)
      (hmessage : before ++ unread ++ '\n' :: caret (byteCount before) <+: message)
  /-- Of a text of several lines, the numbers of the line and the column are given. -/
  | lines {earlier line : List Char} {column : Nat} (hlines : '\n' ∈ before ++ unread)
      (hbefore : IsLastLine earlier line before) (hcolumn : IsColumn line unread column)
      (hmessage : "parse error at line ".toList ++ (Nat.toDigits 10 (before.count '\n' + 1) ++
        (", column ".toList ++ (Nat.toDigits 10 (column + 1) ++ ['\n']))) <+: message)

theorem pointsTo_of_isColumn {earlier line : List Char} {column : Nat}
    (hlines : '\n' ∈ before ++ unread) (hbefore : IsLastLine earlier line before)
    (hcolumn : IsColumn line unread column) (more : List Char) :
    PointsTo before unread ("parse error at line ".toList ++
      (Nat.toDigits 10 (earlier.count '\n' + 1) ++
        (", column ".toList ++ (Nat.toDigits 10 (column + 1) ++ '\n' :: more)))) := by
  have hcount : before.count '\n' = earlier.count '\n' := by
    rw [hbefore.eq_append, List.count_append, List.count_eq_zero.2 hbefore.line, Nat.add_zero]
  refine .lines hlines hbefore hcolumn ?_
  simp only [hcount, List.prefix_append_right_inj]
  exact List.prefix_append ['\n'] more

theorem pointsTo_placeInLines (hlines : '\n' ∈ before ++ unread) (reasons : List Char) :
    PointsTo before unread (placeInLines before unread ++ reasons) := by
  have hbefore := isLastLine_splitLastLine before
  rcases hsplit : splitLastLine before with ⟨earlier, line⟩
  rw [hsplit] at hbefore
  unfold placeInLines
  simp only [hsplit, List.append_assoc, List.cons_append]
  refine pointsTo_of_isColumn hlines hbefore ?_ _
  cases unread with
  | nil => exact .characters nofun
  | cons c unread =>
    dsimp only
    split
    · rename_i hc
      refine .characters ?_
      rintro _ ⟨⟩
      exact hc
    · rename_i hc
      exact .bytes ⟨c, rfl, hc⟩

theorem pointsTo_message (hs : s = before ++ fault.unread) :
    PointsTo before fault.unread (fault.message s).toList := by
  have htake : s.take (s.length - fault.unread.length) = before := by
    simp [hs]
  rw [Fault.message, htake, String.toList_append, String.toList_ofList]
  split
  · rename_i hlines
    exact pointsTo_placeInLines (by simpa [hs] using hlines) _
  · rename_i hlines
    refine .line (by simpa [hs] using hlines) ?_
    rw [placeInLine, hs]
    exact List.prefix_append _ _

end Messages

/-- A rejected text is blamed at a place where it could still have become a call. The place is given
by the bytes before it, which are at most those of the text and end where a character does. -/
theorem exists_completion_of_read_eq_error (t message : String)
    (h : Call.read t = .error message) :
    ∃ fault before, readTrimmed (trim t.toList) = .error fault ∧
      trim t.toList = before ++ fault.unread ∧
      PointsTo before fault.unread message.toList ∧
      byteCount before ≤ (String.ofList (trim t.toList)).utf8ByteSize ∧
      String.Pos.Raw.IsValid (.ofList (trim t.toList)) ⟨byteCount before⟩ ∧
      ∃ completion call, Call.read (.ofList (before ++ completion)) = .ok call := by
  rw [Call.read] at h
  split at h
  · cases h
  · rename_i fault hfault
    cases h
    obtain ⟨before, hbefore, completion, hbegins⟩ := breaksOff_of_readTrimmed hfault
    have hvalid : String.Pos.Raw.IsValid (.ofList (trim t.toList)) ⟨byteCount before⟩ := by
      refine String.Pos.Raw.isValid_iff_exists_append.2
        ⟨.ofList before, .ofList fault.unread, ?_, ?_⟩
      · rw [hbefore, String.ofList_append]
      · rw [byteCount_eq_utf8ByteSize]
        rfl
    obtain ⟨call, hcall⟩ := hbegins [] endsName_nil
    rw [List.append_nil] at hcall
    exact ⟨fault, before, hfault, hbefore, pointsTo_message hbefore, hvalid.le_rawEndPos, hvalid,
      completion, call, read_eq_ok_of_derives hcall⟩

theorem exists_completion_of_read_number :
    Call.read "größe(\"é\", at = pos(-1.5e" = .error
      "größe(\"é\", at = pos(-1.5e\n                            ^\ninvalid value" ∧
    ∃ before unread, PointsTo before unread
        "größe(\"é\", at = pos(-1.5e\n                            ^\ninvalid value".toList ∧
      ∃ completion call, Call.read (.ofList (before ++ completion)) = .ok call := by
  have hread : Call.read "größe(\"é\", at = pos(-1.5e" = .error
      "größe(\"é\", at = pos(-1.5e\n                            ^\ninvalid value" := by
    rfl
  obtain ⟨fault, before, -, -, hpoints, -, -, hcompletion⟩ :=
    exists_completion_of_read_eq_error _ _ hread
  exact ⟨hread, before, fault.unread, hpoints, hcompletion⟩

example : Call.read "f(\n 'é" = .error (.ofList ("parse error at line 2, column 4\n".toList ++
    "  |\n2 |  'é\n  |    ^\ninvalid value\nexpected closing quote".toList)) := by
  rfl

end StoryScript.Call
