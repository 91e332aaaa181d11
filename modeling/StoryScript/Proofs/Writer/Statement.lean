import StoryScript.Proofs.Quotation
import StoryScript.Proofs.Writer.Clauses

/-! # Statements that are written

A statement that can be written is read back from its line. The first characters of the line decide
its form, and what the form takes apart are the parts that were put together.
-/

namespace StoryScript.Script.Statement

open Text

variable {rest : List Char}

section Ends

theorem endsPlain_of_trim (h : trim rest = rest) : EndsPlain rest :=
  (trim_eq_self_iff.1 h).2

theorem trim_led {word : String} (hword : word.toList.head?.any (!isBlank ·) = true)
    (hne : rest ≠ []) (h : EndsPlain rest) : trim (led word rest) = led word rest := by
  refine trim_eq_self_iff.2 ⟨fun c hc => ?_, endsPlain_append hne h⟩
  rw [led] at hc
  cases hchars : word.toList with
  | nil =>
    rw [hchars] at hword
    cases hword
  | cons first chars =>
    rw [hchars] at hword hc
    cases hc
    simpa using hword

theorem endsPlain_literal {s : List Char} : EndsPlain (Quoted.literal s) :=
  endsPlain_concat (s := '"' :: Quoted.encode s) rfl

theorem trim_literal_append {s : List Char} (h : EndsPlain (Quoted.literal s ++ rest)) :
    trim (Quoted.literal s ++ rest) = Quoted.literal s ++ rest := by
  refine trim_eq_self_iff.2 ⟨?_, h⟩
  rintro _ ⟨⟩
  rfl

end Ends

section Forms

variable (rest : List Char)

theorem read_label : read (led "label " rest) =
    .ok (.header (.label (.ofList (trim (rest.takeWhile (· != ':')))))) :=
  rfl

theorem read_scene : read (led "scene " rest) =
    .ok (.simple (.scene (joined (readClauses ["with"] rest).subject)
      (clauseText? (readClauses ["with"] rest) "with"))) :=
  rfl

theorem read_define : read (led "define " rest) =
    match cutAt? '=' rest with
    | none => .ok .ignored
    | some (name, value) =>
      if Call.looksLikeCall (.ofList (trim value)) then
        match Call.read (.ofList (trim value)) with
        | .ok call =>
          .ok (.simple (.define (.ofList (trim name)) (.ofList (trim value)) (some call)))
        | .error message => .error (.malformedDefinition message)
      else .ok (.simple (.define (.ofList (trim name)) (.ofList (trim value)) none)) :=
  rfl

theorem read_assignment : read (led "$ " rest) =
    match cutAt? '=' rest with
    | none => .ok .ignored
    | some (name, value) =>
      if !(trim name).isEmpty && (trim name).all isNameChar then
        .ok (.simple (.define (.ofList (trim name)) (.ofList (trim value)) none))
      else .ok .ignored :=
  rfl

theorem read_ifBranch : read (led "if " rest) = .ok (.header (.ifBranch (conditionText rest))) :=
  (@read_cons _ 'i' rfl (by decide) (by decide)).trans rfl

theorem read_elifBranch :
    read (led "elif " rest) = .ok (.header (.elifBranch (conditionText rest))) := by
  have hmenu : menu? (led "elif " rest) = none := @menu?_cons _ 'e' rfl (by decide)
  unfold read forms
  simp only [List.findSome?_cons, hmenu]
  rfl

theorem read_jump : read (led "jump " rest) = .ok (.simple (.jump (.ofList (trim rest)))) :=
  (@read_cons _ 'j' rfl (by decide) (by decide)).trans rfl

theorem read_pause : read (led "pause " rest) =
    if (trim (' ' :: rest)).isEmpty then .ok (.simple (.pause none))
    else (readNumber (' ' :: rest)).map fun n => .simple (.pause (some n)) :=
  (@read_cons _ 'p' rfl (by decide) (by decide)).trans rfl

theorem read_playMusic : read (led "play music " rest) =
    let (file, rest) := (Quoted.read? (trim rest)).getD ((trim rest).span (!isBlank ·))
    (readClauseNumber (readClauses ["fadein"] rest) "fadein").map fun fadeIn =>
      .simple (.playMusic (.ofList file) fadeIn) :=
  (@read_cons _ 'p' rfl (by decide) (by decide)).trans rfl

theorem read_stopMusic : read (led "stop music" (' ' :: rest)) =
    (readClauseNumber (readClauses ["fadeout"] (' ' :: rest)) "fadeout").map fun fadeOut =>
      .simple (.stopMusic fadeOut) :=
  (@read_cons _ 's' rfl (by decide) (by decide)).trans rfl

theorem read_showImage (h : (readClauses ["at", "with"] rest).subject ≠ []) :
    read (led "show " rest) =
      .ok (.simple (.showImage (joined (readClauses ["at", "with"] rest).subject)
        (clauseText? (readClauses ["at", "with"] rest) "at")
        (clauseText? (readClauses ["at", "with"] rest) "with"))) := by
  have hform : showImage? (led "show " rest) =
      some (.ok (.simple (.showImage (joined (readClauses ["at", "with"] rest).subject)
        (clauseText? (readClauses ["at", "with"] rest) "at")
        (clauseText? (readClauses ["at", "with"] rest) "with")))) :=
    if_neg (by simpa using h)
  refine (@read_cons _ 's' rfl (by decide) (by decide)).trans ?_
  change (openForms.findSome? (· (led "show " rest))).getD _ = _
  simp only [openForms, List.findSome?_cons, hform]
  rfl

theorem read_hideImage (h : (readClauses ["with"] rest).subject ≠ []) :
    read (led "hide " rest) =
      .ok (.simple (.hideImage (joined (readClauses ["with"] rest).subject)
        (clauseText? (readClauses ["with"] rest) "with"))) := by
  have hform : hideImage? (led "hide " rest) =
      some (.ok (.simple (.hideImage (joined (readClauses ["with"] rest).subject)
        (clauseText? (readClauses ["with"] rest) "with")))) :=
    if_neg (by simpa using h)
  refine (@read_cons _ 'h' rfl (by decide) (by decide)).trans ?_
  change (openForms.findSome? (· (led "hide " rest))).getD _ = _
  simp only [openForms, List.findSome?_cons, hform]
  rfl

end Forms

section Headers

variable {name condition : String}

theorem read_trim_label (htidy : IsTidy name.toList) (hcolon : ':' ∉ name.toList) :
    read (trim (led "label " (name.toList ++ [':']))) = .ok (.header (.label name)) := by
  have hname : (name.toList ++ [':']).takeWhile (· != ':') = name.toList := by
    rw [List.takeWhile_append_of_pos]
    · exact List.append_nil _
    · intro c hc
      rw [bne_iff_ne]
      rintro rfl
      exact hcolon hc
  rw [trim_led rfl (List.concat_ne_nil _ _) (endsPlain_concat rfl), read_label,
    hname, htidy.trimmed, String.ofList_toList]

theorem conditionText_concat (htidy : IsTidy condition.toList)
    (hcolon : condition.toList.getLast? ≠ some ':') :
    conditionText (condition.toList ++ [':']) = condition := by
  have htrim : trim (condition.toList ++ [':']) = condition.toList ++ [':'] := by
    refine trim_eq_self_iff.2 ⟨?_, endsPlain_concat rfl⟩
    rw [List.head?_append]
    cases hhead : condition.toList.head? with
    | none =>
      rintro _ ⟨⟩
      rfl
    | some c => exact fun c hc => (trim_eq_self_iff.1 htidy.trimmed).1 c (hhead.trans hc)
  have hdrop : dropEndWhile (· == ':') condition.toList = condition.toList := by
    refine dropEndWhile_eq_self_iff.2 fun c hc => ?_
    rw [beq_eq_false_iff_ne]
    rintro rfl
    exact hcolon hc
  rw [conditionText, htrim, dropEndWhile_eq_rdropWhile, List.rdropWhile_concat_pos _ _ _ rfl,
    ← dropEndWhile_eq_rdropWhile, hdrop, htidy.trimmed, String.ofList_toList]

theorem read_trim_ifBranch (htidy : IsTidy condition.toList)
    (hcolon : condition.toList.getLast? ≠ some ':') :
    read (trim (led "if " (condition.toList ++ [':']))) = .ok (.header (.ifBranch condition)) := by
  rw [trim_led rfl (List.concat_ne_nil _ _) (endsPlain_concat rfl),
    read_ifBranch, conditionText_concat htidy hcolon]

theorem read_trim_elifBranch (htidy : IsTidy condition.toList)
    (hcolon : condition.toList.getLast? ≠ some ':') :
    read (trim (led "elif " (condition.toList ++ [':']))) =
      .ok (.header (.elifBranch condition)) := by
  rw [trim_led rfl (List.concat_ne_nil _ _) (endsPlain_concat rfl),
    read_elifBranch, conditionText_concat htidy hcolon]

theorem read_trim_prompt (content : String) :
    read (trim (Quoted.literal content.toList ++ [':'])) = .ok (.prompt content) := by
  rw [trim_literal_append (endsPlain_concat rfl),
    read_prompt (Quoted.read?_literal _ _) rfl, String.ofList_toList]

theorem read_trim_header {header : Header} (h : IsWritableHeader header) :
    read (trim (text (.header header))) = .ok (.header header) := by
  cases header with
  | label name => exact read_trim_label h.1 h.2
  | menu => rfl
  | choice prompt => exact h.elim
  | ifBranch condition => exact read_trim_ifBranch h.1 h.2
  | elifBranch condition => exact read_trim_elifBranch h.1 h.2
  | elseBranch => rfl

end Headers

end StoryScript.Script.Statement
