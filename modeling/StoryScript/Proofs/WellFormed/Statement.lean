import StoryScript.Proofs.Call.Texts
import StoryScript.Proofs.Statement
import StoryScript.Proofs.Text.Words
import StoryScript.Proofs.Within

/-! # Commands of lines

A command that a line is read as is well formed: its numbers are finite, its images are not empty,
its label has no colon, its call is what its value is read as, and none of its texts has a carriage
return if the line has none.
-/

namespace StoryScript

open Text

namespace Command

def texts : Command → List String
  | .label name _ => [name]
  | .scene image transition => image :: transition.toList
  | .dialogue speaker line => line :: speaker.toList
  | .menu choices => choices.map (·.prompt)
  | .strayChoice choice => [choice.prompt]
  | .ifBranch condition _ => [condition]
  | .elifBranch condition _ => [condition]
  | .elseBranch _ => []
  | .define name value definition => name :: value :: definition.elim [] Call.texts
  | .playMusic file _ => [file]
  | .stopMusic _ => []
  | .showImage image position transition => image :: (position.toList ++ transition.toList)
  | .hideImage image transition => image :: transition.toList
  | .pause _ => []
  | .jump target => [target]
  | .finish => []
  | .unsupported => []

/-- What holds of the parts of a command that is read. Choices stand in menus alone, and no command
is of another language. -/
def HasForm : Command → Prop
  | .strayChoice _ => False
  | .unsupported => False
  | .label name _ => ':' ∉ name.toList
  | .define _ value (some call) => Call.looksLikeCall value = true ∧ Call.read value = .ok call
  | .playMusic _ seconds => ∀ n ∈ seconds, n.isFinite = true
  | .stopMusic seconds => ∀ n ∈ seconds, n.isFinite = true
  | .pause seconds => ∀ n ∈ seconds, n.isFinite = true
  | .showImage image _ _ => image ≠ ""
  | .hideImage image _ => image ≠ ""
  | _ => True

/-- A command as a script can have it, the commands inside it left out. -/
structure WellFormed (command : Command) : Prop where
  form : command.HasForm
  texts : ∀ s ∈ command.texts, '\r' ∉ s.toList

end Command

namespace Script

namespace Statement

/-- The command of a statement that is no choice, with nothing inside it. -/
def command? : Statement → Option Command
  | .ignored => none
  | .simple command => some command
  | .header found => some (Entry.node 0 found []).toCommand
  | .prompt text => some (.dialogue none text)

section Texts

variable {s line rest : List Char} {ws : List (List Char)} {keywords : List String}
  {keyword : String}

theorem not_return_ofList (h : s ⊆ line) (hline : '\r' ∉ line) :
    '\r' ∉ (String.ofList s).toList := by
  rw [String.toList_ofList]
  exact fun hmem => hline (h hmem)

theorem not_return_joined (h : ∀ word ∈ ws, word ⊆ line) (hline : '\r' ∉ line) :
    '\r' ∉ (joined ws).toList := by
  rw [joined, String.toList_ofList]
  intro hmem
  rcases eq_space_or_of_mem_unwords hmem with hspace | ⟨word, hword, hmem⟩
  · cases hspace
  · exact hline (h word hword hmem)

theorem not_return_subject (hrest : '\r' ∉ rest) :
    '\r' ∉ (joined (readClauses keywords rest).subject).toList :=
  not_return_joined (fun _ hword => (mem_words (Clauses.mem_words_of_mem_subject hword)).2) hrest

theorem not_return_clauseText? (hrest : '\r' ∉ rest) :
    ∀ t ∈ clauseText? (readClauses keywords rest) keyword, '\r' ∉ t.toList := by
  intro t ht
  obtain ⟨found, hfound, rfl⟩ := Option.map_eq_some_iff.1 ht
  exact not_return_joined
    (fun word hword => (mem_words (Clauses.mem_words_of_clause? hfound word hword)).2) hrest

theorem joined_subject_ne (hne : (readClauses keywords rest).subject ≠ []) :
    joined (readClauses keywords rest).subject ≠ "" := by
  intro h
  have hunwords := congrArg String.toList h
  rw [joined, String.toList_ofList] at hunwords
  exact unwords_ne_nil hne
    (fun _ hword => (mem_words (Clauses.mem_words_of_mem_subject hword)).1) hunwords

theorem not_return_of_read? {content : List Char} (h : Quoted.read? s = some (content, rest))
    (hs : '\r' ∉ s) : '\r' ∉ content ∧ '\r' ∉ rest := by
  cases s with
  | nil => cases h
  | cons quote s =>
    rw [Quoted.read?] at h
    split at h
    · cases hbody : Quoted.readBody quote s with
      | error fault => simp [hbody, Except.toOption] at h
      | ok found =>
        simp only [hbody, Except.toOption, Option.some.injEq] at h
        rw [h] at hbody
        obtain ⟨units, rfl, hunits⟩ := Quoted.exists_units_of_readBody hbody
        simp only [List.mem_cons, List.mem_append, not_or] at hs
        exact ⟨Call.not_return_of_units hunits hs.2.1, hs.2.2.2⟩
    · cases h

theorem not_return_speech (hs : '\r' ∉ s) : '\r' ∉ speech s := by
  cases s with
  | nil => exact hs
  | cons quote rest =>
    rw [speech]
    split
    · rename_i content after hread
      exact (not_return_of_read? hread hs).1
    · intro hmem
      rw [dropEndWhile_eq_rdropWhile] at hmem
      exact hs (List.mem_cons_of_mem _ ((List.rdropWhile_prefix _ _).subset hmem))

theorem not_return_of_cutAt? {name value : List Char} (h : cutAt? '=' s = some (name, value))
    (hs : '\r' ∉ s) :
    '\r' ∉ (String.ofList (trim name)).toList ∧ '\r' ∉ (String.ofList (trim value)).toList := by
  obtain ⟨-, rfl, -⟩ := cut?_eq_some_iff.1 h
  simp only [List.mem_append, List.mem_cons, not_or] at hs
  exact ⟨not_return_ofList (trim_subset name) hs.1, not_return_ofList (trim_subset value) hs.2.2⟩

theorem not_return_conditionText (hs : '\r' ∉ s) : '\r' ∉ (conditionText s).toList := by
  refine not_return_ofList (fun c hc => trim_subset s ?_) hs
  have hkept := trim_subset _ hc
  rw [dropEndWhile_eq_rdropWhile] at hkept
  exact (List.rdropWhile_prefix _ _).subset hkept

theorem not_return_file {file : List Char}
    (h : (Quoted.read? (trim s)).getD ((trim s).span (!isBlank ·)) = (file, rest))
    (hs : '\r' ∉ s) : '\r' ∉ file := by
  have htrim : '\r' ∉ trim s := fun hmem => hs (trim_subset s hmem)
  cases hread : Quoted.read? (trim s) with
  | some found =>
    rw [hread] at h
    cases h
    exact (not_return_of_read? hread htrim).1
  | none =>
    rw [hread] at h
    have hsplit := (span_eq_iff.1 h).1
    intro hmem
    rw [hsplit] at htrim
    exact htrim (List.mem_append_left _ hmem)

end Texts

section Numbers

variable {s : List Char} {n : Number} {clauses : Clauses} {keyword : String}

theorem isFinite_of_readNumber (h : readNumber s = .ok n) : n.isFinite = true := by
  rw [readNumber] at h
  cases htext : Number.ofText? (trim s) with
  | none => simp [htext] at h
  | some found =>
    rw [htext] at h
    cases h
    exact (Number.ofText?_eq_some_iff.1 htext).2

theorem isFinite_of_readClauseNumber {seconds : Option Number}
    (h : readClauseNumber clauses keyword = .ok seconds) : ∀ n ∈ seconds, n.isFinite = true := by
  rw [readClauseNumber] at h
  split at h
  · cases h
    nofun
  · rename_i words hwords
    cases hnumber : readNumber (unwords words) with
    | error fault =>
      rw [hnumber] at h
      cases h
    | ok n =>
      rw [hnumber] at h
      cases h
      rintro _ ⟨⟩
      exact isFinite_of_readNumber hnumber

end Numbers

section WellFormed

variable {line : List Char} {statement : Statement} {reading : Reading}

theorem inner_of_yields (h : Yields line reading) (hok : reading = .ok statement) :
    ∀ command ∈ statement.command?, command.inner = [] := by
  cases h with
  | malformed => cases hok
  | ignored =>
    cases hok
    nofun
  | pauseFor | playMusic | stopMusic =>
    obtain ⟨_, -, rfl⟩ := exists_of_map_eq_ok hok
    rintro _ ⟨⟩
    rfl
  | _ =>
    cases hok
    rintro _ ⟨⟩
    rfl

theorem form_of_yields (h : Yields line reading) (hok : reading = .ok statement) :
    ∀ command ∈ statement.command?, command.HasForm := by
  cases h with
  | label rest =>
    cases hok
    rintro _ ⟨⟩ hcolon
    rw [String.toList_ofList] at hcolon
    have hkept := List.mem_takeWhile_imp (trim_subset _ hcolon)
    simp at hkept
  | called _ hlooks hread =>
    cases hok
    rintro _ ⟨⟩
    exact ⟨hlooks, hread⟩
  | malformed => cases hok
  | ignored =>
    cases hok
    nofun
  | pause =>
    cases hok
    rintro _ ⟨⟩
    nofun
  | pauseFor =>
    obtain ⟨n, hn, rfl⟩ := exists_of_map_eq_ok hok
    rintro _ ⟨⟩ _ ⟨⟩
    exact isFinite_of_readNumber hn
  | playMusic | stopMusic =>
    obtain ⟨seconds, hseconds, rfl⟩ := exists_of_map_eq_ok hok
    rintro _ ⟨⟩
    exact isFinite_of_readClauseNumber hseconds
  | showImage hne | hideImage hne =>
    cases hok
    rintro _ ⟨⟩
    exact joined_subject_ne hne
  | _ =>
    cases hok
    rintro _ ⟨⟩
    trivial

/-- The texts of a command come from the line that it is read from. -/
theorem texts_of_yields (h : Yields line reading) (hok : reading = .ok statement)
    (hline : '\r' ∉ line) :
    ∀ command ∈ statement.command?, ∀ s ∈ command.texts, '\r' ∉ s.toList := by
  have hnone : ∀ s ∈ ([] : List String), '\r' ∉ s.toList := by simp
  cases h with
  | malformed => cases hok
  | ignored =>
    cases hok
    nofun
  | menu | elseBranch | pause | finish =>
    cases hok
    rintro _ ⟨⟩
    exact hnone
  | pauseFor | stopMusic =>
    obtain ⟨_, -, rfl⟩ := exists_of_map_eq_ok hok
    rintro _ ⟨⟩
    exact hnone
  | label rest =>
    cases hok
    rintro _ ⟨⟩
    rw [List.mem_append, not_or] at hline
    have hname : trim (rest.takeWhile (· != ':')) ⊆ rest :=
      List.Subset.trans (trim_subset _) (List.takeWhile_subset _)
    exact List.forall_mem_cons.2 ⟨not_return_ofList hname hline.2, hnone⟩
  | scene rest =>
    cases hok
    rintro _ ⟨⟩
    rw [List.mem_append, not_or] at hline
    refine List.forall_mem_cons.2 ⟨not_return_subject hline.2, ?_⟩
    exact fun s hs => not_return_clauseText? hline.2 s (Option.mem_toList.1 hs)
  | called hcut _ hread =>
    cases hok
    rintro _ ⟨⟩
    rw [List.mem_append, not_or] at hline
    obtain ⟨hname, hvalue⟩ := not_return_of_cutAt? hcut hline.2
    have hcall := Call.not_return_of_read hread hvalue
    exact List.forall_mem_cons.2 ⟨hname, List.forall_mem_cons.2 ⟨hvalue, hcall⟩⟩
  | assigned hcut =>
    cases hok
    rintro _ ⟨⟩
    rw [List.mem_append, not_or] at hline
    obtain ⟨hname, hvalue⟩ := not_return_of_cutAt? hcut hline.2
    exact List.forall_mem_cons.2 ⟨hname, List.forall_mem_cons.2 ⟨hvalue, hnone⟩⟩
  | prompt hread =>
    cases hok
    rintro _ ⟨⟩
    have hcontent := not_return_ofList (List.Subset.refl _) (not_return_of_read? hread hline).1
    exact List.forall_mem_cons.2 ⟨hcontent, hnone⟩
  | ifBranch rest | elifBranch rest =>
    cases hok
    rintro _ ⟨⟩
    rw [List.mem_append, not_or] at hline
    exact List.forall_mem_cons.2 ⟨not_return_conditionText hline.2, hnone⟩
  | jump rest =>
    cases hok
    rintro _ ⟨⟩
    rw [List.mem_append, not_or] at hline
    exact List.forall_mem_cons.2 ⟨not_return_ofList (trim_subset rest) hline.2, hnone⟩
  | playMusic hfile =>
    obtain ⟨_, -, rfl⟩ := exists_of_map_eq_ok hok
    rintro _ ⟨⟩
    rw [List.mem_append, not_or] at hline
    have hname := not_return_ofList (List.Subset.refl _) (not_return_file hfile hline.2)
    exact List.forall_mem_cons.2 ⟨hname, hnone⟩
  | showImage =>
    cases hok
    rintro _ ⟨⟩
    rw [List.mem_append, not_or] at hline
    refine List.forall_mem_cons.2 ⟨not_return_subject hline.2, List.forall_mem_append.2 ⟨?_, ?_⟩⟩
    · exact fun s hs => not_return_clauseText? hline.2 s (Option.mem_toList.1 hs)
    · exact fun s hs => not_return_clauseText? hline.2 s (Option.mem_toList.1 hs)
  | hideImage =>
    cases hok
    rintro _ ⟨⟩
    rw [List.mem_append, not_or] at hline
    refine List.forall_mem_cons.2 ⟨not_return_subject hline.2, ?_⟩
    exact fun s hs => not_return_clauseText? hline.2 s (Option.mem_toList.1 hs)
  | dialogue hspeaker =>
    cases hok
    rintro _ ⟨⟩
    rw [List.mem_append, not_or] at hline
    refine List.forall_mem_cons.2 ⟨?_, fun s hs => ?_⟩
    · exact not_return_ofList (List.Subset.refl _) (not_return_speech hline.2)
    · rw [(hspeaker s (Option.mem_toList.1 hs)).1]
      exact not_return_ofList (trim_subset _) hline.1

theorem wellFormed_of_read (h : read line = .ok statement) (hline : '\r' ∉ line) :
    ∀ command ∈ statement.command?, command.WellFormed ∧ command.inner = [] := by
  intro command hcommand
  have hyields := yields_read line
  have hform := form_of_yields hyields h command hcommand
  have htexts := texts_of_yields hyields h hline command hcommand
  exact ⟨⟨hform, htexts⟩, inner_of_yields hyields h command hcommand⟩

end WellFormed

end Statement

end Script

end StoryScript
