import Mathlib.Data.List.TakeDrop
import StoryScript.Proofs.Writer.Command

/-! # Speech that is written

A line of speech ends with its literal. What stands before the literal is the speaker, who is not
the word of another statement, so no other form reads the line.
-/

namespace StoryScript.Script.Statement

open Text

section Quotes

variable {s rest : List Char} {quote : Char}

theorem span_append_of_quote (h : ∀ c ∈ s, Quoted.isQuote c = false)
    (hquote : Quoted.isQuote quote = true) :
    (s ++ quote :: rest).span (!Quoted.isQuote ·) = (s, quote :: rest) := by
  refine span_eq_iff.2 ⟨rfl, fun c hc => ?_, ?_⟩
  · rw [h c hc]
    rfl
  · rintro _ ⟨⟩
    rw [hquote]
    rfl

end Quotes

section Openers

variable {line : List Char}

theorem afterWord?_eq_none {word : String} (h : ¬word.toList <+: line) :
    afterWord? word line = none := by
  cases hafter : afterWord? word line with
  | none => rfl
  | some rest => exact absurd ⟨rest, (after?_eq_some_iff.1 hafter).symm⟩ h

theorem afterWholeWord?_eq_none {word : String} (hne : line ≠ word.toList)
    (h : ¬word.toList ++ [' '] <+: line) : afterWholeWord? word line = none := by
  unfold afterWholeWord?
  split
  · rename_i hafter
    exact absurd (by simpa using after?_eq_some_iff.1 hafter) hne
  · rename_i rest hafter
    refine absurd ⟨rest, ?_⟩ h
    rw [after?_eq_some_iff.1 hafter, List.append_assoc, List.singleton_append]
  · rfl

theorem beforeColon?_eq_none (h : line.getLast? = some '"') : beforeColon? line = none := by
  rw [beforeColon?, h]
  rfl

theorem ne_of_getLast? {word : List Char} (h : line.getLast? = some '"')
    (hword : word.getLast? ≠ some '"') : line ≠ word := by
  rintro rfl
  exact hword h

/-- A line that begins with no other statement and ends with a quote is a line of speech. -/
theorem read_of_unopened (hopeners : ∀ opener ∈ openers, ¬opener.toList <+: line)
    (hquote : Quoted.read? line = none) (hlast : line.getLast? = some '"') :
    read line = (dialogue? line).getD (.ok .ignored) := by
  have hword : ∀ opener ∈ openers, afterWord? opener line = none := fun opener hopener =>
    afterWord?_eq_none (hopeners opener hopener)
  have hpause : afterWholeWord? "pause" line = none :=
    afterWholeWord?_eq_none (ne_of_getLast? hlast (by decide)) (hopeners "pause " (by decide))
  have hstop : afterWholeWord? "stop music" line = none :=
    afterWholeWord?_eq_none (ne_of_getLast? hlast (by decide))
      (hopeners "stop music " (by decide))
  have hfinish : line ≠ "return".toList := ne_of_getLast? hlast (by decide)
  simp only [openers, List.forall_mem_cons] at hword
  obtain ⟨hlabel, hscene, hdefine, hassign, hif, helif, hjump, -, hplay, -, hshow, hhide, -⟩ :=
    hword
  simp only [read, forms, List.findSome?_cons, List.findSome?_nil, label?, scene?, define?,
    assignment?, menu?, prompt?, ifBranch?, elifBranch?, elseBranch?, jump?, pause?, playMusic?,
    stopMusic?, showImage?, hideImage?, finish?, hlabel, hscene, hdefine, hassign, hif, helif,
    hjump, hpause, hplay, hstop, hshow, hhide, hquote, beforeColon?_eq_none hlast, if_neg hfinish,
    Option.map_none, reduceCtorEq, if_false]
  cases dialogue? line <;> rfl

end Openers

section Speech

variable {speaker text : String}

theorem speech_literal (s : List Char) : speech (Quoted.literal s) = s := by
  have hread := Quoted.read?_literal s []
  rw [List.append_nil] at hread
  rw [Quoted.literal] at hread ⊢
  rw [speech, hread]

theorem getLast?_append_literal (before s : List Char) :
    (before ++ Quoted.literal s).getLast? = some '"' := by
  rw [Quoted.literal, ← List.cons_append, ← List.append_assoc, List.getLast?_append,
    List.getLast?_singleton, Option.some_or]

theorem not_isQuote_of_isSpeaker {name : List Char} (h : isSpeaker name = true) {c : Char}
    (hc : c ∈ name) : Quoted.isQuote c = false := by
  by_contra hquote
  rw [Bool.not_eq_false] at hquote
  have hname := List.all_eq_true.1 h c hc
  rw [isNameChar_of_isQuote hquote, isBlank_of_isQuote hquote] at hname
  cases hname

theorem dialogue?_append_literal {before : List Char} (s : List Char)
    (hquotes : ∀ c ∈ before, Quoted.isQuote c = false) (hspeaker : isSpeaker (trim before) = true) :
    dialogue? (before ++ Quoted.literal s) = some (.ok (.simple (.dialogue
      (if (trim before).isEmpty then none else some (.ofList (trim before))) (.ofList s)))) := by
  have hspan : (before ++ Quoted.literal s).span (!Quoted.isQuote ·) =
      (before, Quoted.literal s) := span_append_of_quote hquotes rfl
  rw [dialogue?, hspan]
  refine (if_pos hspeaker).trans ?_
  rw [speech_literal]

theorem read_trim_narration :
    read (trim (Quoted.literal text.toList)) = .ok (.simple (.dialogue none text)) := by
  have hread := Quoted.read?_literal text.toList []
  have htrim := @trim_literal_append [] text.toList
  rw [List.append_nil] at hread htrim
  have hprompt : prompt? (Quoted.literal text.toList) = none := by
    rw [prompt?, hread]
    rfl
  have hdialogue := @dialogue?_append_literal [] text.toList (List.forall_mem_nil _) rfl
  rw [List.nil_append, trim_nil, String.ofList_toList] at hdialogue
  have hquote : read (Quoted.literal text.toList) =
      ((prompt? (Quoted.literal text.toList)).or
        (dialogue? (Quoted.literal text.toList))).getD (.ok .ignored) := read_of_quote rfl
  rw [htrim endsPlain_literal, hquote, hprompt, hdialogue]
  rfl

theorem read_trim_speech (h : IsSpeaker speaker.toList) :
    read (trim (speaker.toList ++ ' ' :: Quoted.literal text.toList)) =
      .ok (.simple (.dialogue (some speaker) text)) := by
  have hquotes : ∀ c ∈ speaker.toList ++ [' '], Quoted.isQuote c = false :=
    List.forall_mem_append.2
      ⟨fun c hc => not_isQuote_of_isSpeaker h.names hc, List.forall_mem_singleton.2 rfl⟩
  have hline : speaker.toList ++ ' ' :: Quoted.literal text.toList =
      speaker.toList ++ [' '] ++ Quoted.literal text.toList := by
    rw [List.append_assoc, List.singleton_append]
  have htrim : trim (speaker.toList ++ [' '] ++ Quoted.literal text.toList) =
      speaker.toList ++ [' '] ++ Quoted.literal text.toList := by
    refine trim_eq_self_iff.2 ⟨?_, endsPlain_append (List.cons_ne_nil _ _) endsPlain_literal⟩
    rw [List.append_assoc, List.head?_append_of_ne_nil _ h.nonempty]
    exact (trim_eq_self_iff.1 h.tidy.trimmed).1
  have hopeners : ∀ opener ∈ openers,
      ¬opener.toList <+: speaker.toList ++ [' '] ++ Quoted.literal text.toList := by
    intro opener hopener hprefix
    have hplain : ∀ opener ∈ openers, '"' ∉ opener.toList := by decide
    exact h.unopened opener hopener (prefix_of_prefix_append (hplain opener hopener) hprefix)
  have hquote : Quoted.read? (speaker.toList ++ [' '] ++ Quoted.literal text.toList) = none := by
    obtain ⟨first, later, hspeaker⟩ := List.exists_cons_of_ne_nil h.nonempty
    have hfirst := hquotes first (by simp [hspeaker])
    rw [hspeaker, List.cons_append, List.cons_append, Quoted.read?, hfirst]
    rfl
  have hspace := trim_concat_space h.tidy.trimmed
  have hdialogue := dialogue?_append_literal text.toList hquotes (by rw [hspace]; exact h.names)
  have hfull : ¬speaker.toList.isEmpty := by
    rw [List.isEmpty_iff]
    exact h.nonempty
  rw [hspace, if_neg hfull, String.ofList_toList, String.ofList_toList] at hdialogue
  rw [hline, htrim,
    read_of_unopened hopeners hquote (getLast?_append_literal _ _), hdialogue]
  rfl

end Speech

theorem read_trim_command {command : Command} (h : IsWritableCommand command) :
    read (trim (text (.simple command))) = .ok (.simple command) := by
  match command with
  | .scene _ _ => exact read_trim_scene h.1 h.2
  | .dialogue none _ => exact read_trim_narration
  | .dialogue (some speaker) _ => exact read_trim_speech (h.1 speaker rfl)
  | .define _ _ none => exact read_trim_assignment h.1 h.2.1 h.2.2
  | .define _ _ (some _) => exact read_trim_definition h.1 h.2.1 h.2.2.1 h.2.2.2.1 h.2.2.2.2
  | .playMusic _ _ => exact read_trim_playMusic h.2
  | .stopMusic _ => exact read_trim_stopMusic h
  | .showImage _ _ _ => exact read_trim_showImage h.1 h.2.1 h.2.2
  | .hideImage _ _ => exact read_trim_hideImage h.1 h.2
  | .pause none => rfl
  | .pause (some n) => exact read_trim_pause (h n rfl)
  | .jump _ => exact read_trim_jump h.1 h.2
  | .finish => rfl
  | .label _ _ | .menu _ | .strayChoice _ | .ifBranch _ _ | .elifBranch _ _ | .elseBranch _
  | .unsupported => exact h.elim

theorem read_trim_text {statement : Statement} (h : statement.IsWritable) :
    read (trim statement.text) = .ok statement := by
  cases statement with
  | ignored => exact h.elim
  | simple command => exact read_trim_command h
  | header header => exact read_trim_header h
  | prompt content => exact read_trim_prompt content

end StoryScript.Script.Statement
