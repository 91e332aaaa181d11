import StoryScript.Proofs.Text.Cut
import StoryScript.Proofs.Text.Trim
import StoryScript.Script.Statement

/-! # What a line is read as

Whatever a line says is said by one of the forms of statements. Each form takes the line apart in
its own way, and only definitions and numbers can be at fault.
-/

namespace StoryScript.Script.Statement

open Text

/-- What a line is read as, with one case or a few for each form. -/
inductive Yields : List Char → Reading → Prop
  | ignored {line : List Char} : Yields line (.ok .ignored)
  | label (rest : List Char) :
      Yields ("label ".toList ++ rest)
        (.ok (.header (.label (.ofList (trim (rest.takeWhile (· != ':')))))))
  | scene (rest : List Char) :
      Yields ("scene ".toList ++ rest)
        (.ok (.simple (.scene (joined (readClauses ["with"] rest).subject)
          (clauseText? (readClauses ["with"] rest) "with"))))
  | called {rest name value : List Char} {call : Call} (hcut : cutAt? '=' rest = some (name, value))
      (hlooks : Call.looksLikeCall (.ofList (trim value)) = true)
      (hread : Call.read (.ofList (trim value)) = .ok call) :
      Yields ("define ".toList ++ rest)
        (.ok (.simple (.define (.ofList (trim name)) (.ofList (trim value)) (some call))))
  | malformed {rest name value : List Char} {message : String}
      (hcut : cutAt? '=' rest = some (name, value))
      (hlooks : Call.looksLikeCall (.ofList (trim value)) = true)
      (hread : Call.read (.ofList (trim value)) = .error message) :
      Yields ("define ".toList ++ rest) (.error (.malformedDefinition message))
  | assigned {word rest name value : List Char} (hcut : cutAt? '=' rest = some (name, value)) :
      Yields (word ++ rest)
        (.ok (.simple (.define (.ofList (trim name)) (.ofList (trim value)) none)))
  | menu {line : List Char} : Yields line (.ok (.header .menu))
  | prompt {line content rest : List Char} (hread : Quoted.read? line = some (content, rest)) :
      Yields line (.ok (.prompt (.ofList content)))
  | ifBranch (rest : List Char) :
      Yields ("if ".toList ++ rest) (.ok (.header (.ifBranch (conditionText rest))))
  | elifBranch (rest : List Char) :
      Yields ("elif ".toList ++ rest) (.ok (.header (.elifBranch (conditionText rest))))
  | elseBranch {line : List Char} : Yields line (.ok (.header .elseBranch))
  | jump (rest : List Char) :
      Yields ("jump ".toList ++ rest) (.ok (.simple (.jump (.ofList (trim rest)))))
  | pause {line : List Char} : Yields line (.ok (.simple (.pause none)))
  | pauseFor {rest : List Char} (hne : trim rest ≠ []) :
      Yields ("pause ".toList ++ rest)
        ((readNumber rest).map fun n => .simple (.pause (some n)))
  | playMusic {rest file after : List Char}
      (hfile : (Quoted.read? (trim rest)).getD ((trim rest).span (!isBlank ·)) = (file, after)) :
      Yields ("play music ".toList ++ rest)
        ((readClauseNumber (readClauses ["fadein"] after) "fadein").map fun fadeIn =>
          .simple (.playMusic (.ofList file) fadeIn))
  | stopMusic {rest : List Char} (hrest : rest = [] ∨ ∃ later, rest = ' ' :: later) :
      Yields ("stop music".toList ++ rest)
        ((readClauseNumber (readClauses ["fadeout"] rest) "fadeout").map fun fadeOut =>
          .simple (.stopMusic fadeOut))
  | showImage {rest : List Char} (hne : (readClauses ["at", "with"] rest).subject ≠ []) :
      Yields ("show ".toList ++ rest)
        (.ok (.simple (.showImage (joined (readClauses ["at", "with"] rest).subject)
          (clauseText? (readClauses ["at", "with"] rest) "at")
          (clauseText? (readClauses ["at", "with"] rest) "with"))))
  | hideImage {rest : List Char} (hne : (readClauses ["with"] rest).subject ≠ []) :
      Yields ("hide ".toList ++ rest)
        (.ok (.simple (.hideImage (joined (readClauses ["with"] rest).subject)
          (clauseText? (readClauses ["with"] rest) "with"))))
  | finish {line : List Char} : Yields line (.ok (.simple .finish))
  | dialogue {before quoted : List Char} {speaker : Option String}
      (hspeaker : ∀ s ∈ speaker, s = .ofList (trim before) ∧ trim before ≠ [] ∧
        isSpeaker (trim before) = true) :
      Yields (before ++ quoted) (.ok (.simple (.dialogue speaker (.ofList (speech quoted)))))

section Words

variable {word : String} {line rest : List Char}

theorem eq_append_of_afterWord? (h : afterWord? word line = some rest) :
    line = word.toList ++ rest :=
  after?_eq_some_iff.1 h

theorem eq_append_of_afterWholeWord? (h : afterWholeWord? word line = some rest) :
    line = word.toList ++ rest ∧ (rest = [] ∨ ∃ later, rest = ' ' :: later) := by
  unfold afterWholeWord? at h
  split at h
  · cases h
    exact ⟨eq_append_of_afterWord? ‹_›, .inl rfl⟩
  · cases h
    exact ⟨eq_append_of_afterWord? ‹_›, .inr ⟨_, rfl⟩⟩
  · cases h

theorem exists_rest_of_map {read : List Char → Reading} {reading : Reading}
    (h : (afterWord? word line).map read = some reading) :
    ∃ rest, line = word.toList ++ rest ∧ read rest = reading := by
  obtain ⟨rest, hrest, heq⟩ := Option.map_eq_some_iff.1 h
  exact ⟨rest, eq_append_of_afterWord? hrest, heq⟩

end Words

variable {line : List Char} {reading : Reading}

theorem yields_define (h : define? line = some reading) : Yields line reading := by
  obtain ⟨rest, rfl, rfl⟩ := exists_rest_of_map h
  cases hcut : cutAt? '=' rest with
  | none => exact .ignored
  | some parts =>
    obtain ⟨name, value⟩ := parts
    simp only
    split
    · rename_i hlooks
      cases hread : Call.read (.ofList (trim value)) with
      | ok call => exact .called hcut hlooks hread
      | error message => exact .malformed hcut hlooks hread
    · exact .assigned hcut

theorem yields_assignment (h : assignment? line = some reading) : Yields line reading := by
  obtain ⟨rest, rfl, rfl⟩ := exists_rest_of_map h
  cases hcut : cutAt? '=' rest with
  | none => exact .ignored
  | some parts =>
    simp only
    split
    · exact .assigned hcut
    · exact .ignored

theorem yields_prompt (h : prompt? line = some reading) : Yields line reading := by
  unfold prompt? at h
  split at h
  · rename_i content rest hread
    split at h <;> cases h
    exact .prompt hread
  · cases h

theorem yields_pause (h : pause? line = some reading) : Yields line reading := by
  obtain ⟨rest, hrest, rfl⟩ := Option.map_eq_some_iff.1 h
  obtain ⟨rfl, rfl | ⟨later, rfl⟩⟩ := eq_append_of_afterWholeWord? hrest
  · exact .pause
  · split
    · exact .pause
    · rename_i hne
      have htrim : trim (' ' :: later) = trim later := trim_cons_of_blank rfl
      rw [htrim] at hne
      rw [readNumber, htrim]
      exact .pauseFor (by simpa using hne)

theorem yields_playMusic (h : playMusic? line = some reading) : Yields line reading := by
  obtain ⟨rest, rfl, rfl⟩ := exists_rest_of_map h
  exact .playMusic rfl

theorem yields_stopMusic (h : stopMusic? line = some reading) : Yields line reading := by
  obtain ⟨rest, hrest, rfl⟩ := Option.map_eq_some_iff.1 h
  obtain ⟨rfl, hspace⟩ := eq_append_of_afterWholeWord? hrest
  exact .stopMusic hspace

theorem yields_showImage (h : showImage? line = some reading) : Yields line reading := by
  unfold showImage? at h
  split at h
  · cases h
  · rename_i rest hrest
    obtain rfl := eq_append_of_afterWord? hrest
    simp only at h
    split at h <;> cases h
    rename_i hne
    exact .showImage (by simpa using hne)

theorem yields_hideImage (h : hideImage? line = some reading) : Yields line reading := by
  unfold hideImage? at h
  split at h
  · cases h
  · rename_i rest hrest
    obtain rfl := eq_append_of_afterWord? hrest
    simp only at h
    split at h <;> cases h
    rename_i hne
    exact .hideImage (by simpa using hne)

theorem yields_dialogue (h : dialogue? line = some reading) : Yields line reading := by
  unfold dialogue? at h
  split at h
  · cases h
  · rename_i before quoted hspan
    obtain ⟨rfl, -⟩ := span_eq_iff.1 hspan
    simp only at h
    split at h <;> cases h
    rename_i hnames
    refine .dialogue ?_
    intro s hs
    split at hs <;> cases hs
    rename_i hne
    exact ⟨rfl, by simpa using hne, hnames⟩

/-- Every form that fits a line says what the line is read as. -/
theorem yields_of_mem_forms {form : List Char → Option Reading} (h : form ∈ forms)
    (hr : form line = some reading) : Yields line reading := by
  simp only [forms, List.mem_cons, List.not_mem_nil, or_false] at h
  rcases h with rfl | rfl | rfl | rfl | rfl | rfl | rfl | rfl | rfl | rfl | rfl | rfl | rfl | rfl |
    rfl | rfl | rfl
  · obtain ⟨rest, rfl, rfl⟩ := exists_rest_of_map hr
    exact .label rest
  · obtain ⟨rest, rfl, rfl⟩ := exists_rest_of_map hr
    exact .scene rest
  · exact yields_define hr
  · exact yields_assignment hr
  · unfold menu? at hr
    split at hr <;> cases hr
    exact .menu
  · exact yields_prompt hr
  · obtain ⟨rest, rfl, rfl⟩ := exists_rest_of_map hr
    exact .ifBranch rest
  · obtain ⟨rest, rfl, rfl⟩ := exists_rest_of_map hr
    exact .elifBranch rest
  · unfold elseBranch? at hr
    split at hr <;> cases hr
    exact .elseBranch
  · obtain ⟨rest, rfl, rfl⟩ := exists_rest_of_map hr
    exact .jump rest
  · exact yields_pause hr
  · exact yields_playMusic hr
  · exact yields_stopMusic hr
  · exact yields_showImage hr
  · exact yields_hideImage hr
  · unfold finish? at hr
    split at hr <;> cases hr
    exact .finish
  · exact yields_dialogue hr

theorem yields_read (line : List Char) : Yields line (read line) := by
  unfold read
  cases h : forms.findSome? (· line) with
  | none => exact .ignored
  | some reading =>
    obtain ⟨form, hform, hreading⟩ := List.exists_of_findSome?_eq_some h
    exact yields_of_mem_forms hform hreading

end StoryScript.Script.Statement
