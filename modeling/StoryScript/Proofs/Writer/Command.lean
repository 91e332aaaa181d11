import StoryScript.Proofs.Text.Cut
import StoryScript.Proofs.Writer.Statement

/-! # Commands that are written

A command without a body is read back from its line. Its phrases, numbers and literals are taken
apart where they were put together, and a speaker is never taken for another statement.
-/

namespace StoryScript.Script.Statement

open Text

variable {image : String} {position transition : Option String} {keyword : String}
  {keywords subject : List (List Char)} {s : List Char} {t? : Option (List Char)}

section Clauses

theorem readClauses_clause (hword : IsWord keyword.toList)
    (ht : ∀ t ∈ t?, IsPhrase [keyword.toList] t) :
    readClauses [keyword] (clause keyword t?) =
      ⟨[], (t?.map fun t => (keyword.toList, words t)).toList⟩ := by
  have hclause := ofWords_words_clause _ List.mem_cons_self hword ht isSpaced_nil rfl
  rw [List.append_nil] at hclause
  rw [readClauses, List.map_singleton, Clauses.read, hclause]
  exact congrArg _ (List.append_nil _)

theorem readClauses_phrase_clause (hword : IsWord keyword.toList)
    (hs : IsPhrase [keyword.toList] s) (ht : ∀ t ∈ t?, IsPhrase [keyword.toList] t) :
    readClauses [keyword] (s ++ clause keyword t?) =
      ⟨words s, (t?.map fun t => (keyword.toList, words t)).toList⟩ := by
  have hclause := readClauses_clause hword ht
  have hspaced := @isSpaced_clause keyword _ t? isSpaced_nil
  rw [List.append_nil] at hspaced
  rw [readClauses, List.map_singleton, Clauses.read] at hclause
  rw [readClauses, List.map_singleton, read_phrase_append hs hspaced (by rw [hclause]), hclause]

theorem clause?_toList :
    Clauses.clause? ⟨subject, (t?.map fun t => (keyword.toList, words t)).toList⟩ keyword.toList =
      t?.map words := by
  cases t? with
  | none => rfl
  | some t => simp [Clauses.clause?]

theorem readClauses_phrase_clauses {p? : Option (List Char)}
    (hs : IsPhrase ["at".toList, "with".toList] s)
    (hp : ∀ p ∈ p?, IsPhrase ["at".toList, "with".toList] p)
    (ht : ∀ t ∈ t?, IsPhrase ["at".toList, "with".toList] t) :
    readClauses ["at", "with"] (s ++ (clause "at" p? ++ clause "with" t?)) =
      ⟨words s, (p?.map fun p => ("at".toList, words p)).toList ++
        (t?.map fun t => ("with".toList, words t)).toList⟩ := by
  have hspaced := @isSpaced_clause "with" _ t? isSpaced_nil
  have hwith := ofWords_words_clause "with" (by decide) (by decide) ht isSpaced_nil rfl
  rw [List.append_nil] at hspaced hwith
  have hat := ofWords_words_clause "at" (by decide) (by decide) hp hspaced (by rw [hwith])
  rw [readClauses, List.map_cons, List.map_singleton,
    read_phrase_append hs (isSpaced_clause _ hspaced) (by rw [hat]), hat, hwith]
  exact congrArg _ (congrArg _ (List.append_nil _))

section Pair

variable {p? : Option (List Char)}

theorem clause?_at :
    Clauses.clause? ⟨subject, (p?.map fun p => ("at".toList, words p)).toList ++
      (t?.map fun t => ("with".toList, words t)).toList⟩ "at".toList = p?.map words := by
  cases p? <;> cases t? <;> simp [Clauses.clause?]

theorem clause?_with :
    Clauses.clause? ⟨subject, (p?.map fun p => ("at".toList, words p)).toList ++
      (t?.map fun t => ("with".toList, words t)).toList⟩ "with".toList = t?.map words := by
  cases p? <;> cases t? <;> simp [Clauses.clause?]

end Pair

end Clauses

section Phrases

theorem joined_words {s : String} (h : IsPhrase keywords s.toList) :
    joined (words s.toList) = s := by
  rw [joined, h.joined, String.ofList_toList]

theorem map_joined_words {s? : Option String} (h : ∀ s ∈ s?, IsPhrase keywords s.toList) :
    ((s?.map String.toList).map words).map joined = s? := by
  cases s? with
  | none => rfl
  | some s => exact congrArg some (joined_words (h s rfl))

theorem isPhrase_of_mem_map {s? : Option String} (h : ∀ s ∈ s?, IsPhrase keywords s.toList) :
    ∀ s ∈ s?.map String.toList, IsPhrase keywords s := by
  intro s hs
  obtain ⟨t, ht, rfl⟩ := Option.map_eq_some_iff.1 hs
  exact h t ht

theorem read_trim_scene (himage : IsPhrase ["with".toList] image.toList)
    (htransition : ∀ t ∈ transition, IsPhrase ["with".toList] t.toList) :
    read (trim (led "scene " (image.toList ++ clause "with" (transition.map String.toList)))) =
      .ok (.simple (.scene image transition)) := by
  have ht := isPhrase_of_mem_map htransition
  have hends := endsPlain_append_clause "with" (endsPlain_of_isPhrase himage) ht
  rw [trim_led rfl (List.append_ne_nil_of_left_ne_nil himage.nonempty _) hends,
    read_scene, readClauses_phrase_clause (by decide) himage ht, clauseText?, clause?_toList,
    map_joined_words htransition, joined_words himage]

theorem read_trim_hideImage (himage : IsPhrase ["with".toList] image.toList)
    (htransition : ∀ t ∈ transition, IsPhrase ["with".toList] t.toList) :
    read (trim (led "hide " (image.toList ++ clause "with" (transition.map String.toList)))) =
      .ok (.simple (.hideImage image transition)) := by
  have ht := isPhrase_of_mem_map htransition
  have hends := endsPlain_append_clause "with" (endsPlain_of_isPhrase himage) ht
  have hclauses := readClauses_phrase_clause (by decide) himage ht
  rw [trim_led rfl (List.append_ne_nil_of_left_ne_nil himage.nonempty _) hends,
    read_hideImage, hclauses, clauseText?, clause?_toList, map_joined_words htransition,
    joined_words himage]
  rw [hclauses]
  exact words_ne_nil_of_isPhrase himage

theorem read_trim_showImage (himage : IsPhrase ["at".toList, "with".toList] image.toList)
    (hposition : ∀ p ∈ position, IsPhrase ["at".toList, "with".toList] p.toList)
    (htransition : ∀ t ∈ transition, IsPhrase ["at".toList, "with".toList] t.toList) :
    read (trim (led "show " (image.toList ++ (clause "at" (position.map String.toList) ++
      clause "with" (transition.map String.toList))))) =
      .ok (.simple (.showImage image position transition)) := by
  have hp := isPhrase_of_mem_map hposition
  have ht := isPhrase_of_mem_map htransition
  have hends := endsPlain_append_clause "at" (endsPlain_of_isPhrase himage) hp
  have hends := endsPlain_append_clause "with" hends ht
  rw [List.append_assoc] at hends
  have hclauses := readClauses_phrase_clauses himage hp ht
  rw [trim_led rfl (List.append_ne_nil_of_left_ne_nil himage.nonempty _) hends,
    read_showImage, hclauses, clauseText?, clause?_at, clauseText?, clause?_with,
    map_joined_words hposition, map_joined_words htransition, joined_words himage]
  rw [hclauses]
  exact words_ne_nil_of_isPhrase himage

end Phrases

section Numbers

variable {seconds : Option Number} {file : String}

theorem readNumber_of_trim {n : Number} (h : n.isFinite = true) (hs : trim s = n.text) :
    readNumber s = .ok n := by
  rw [readNumber, hs, Number.ofText?_text h]

theorem isPhrase_of_mem_map_text (keyword : String) (h : ∀ n ∈ seconds, n.isFinite)
    (hword : Number.ofText? keyword.toList = none) :
    ∀ s ∈ seconds.map Number.text, IsPhrase [keyword.toList] s := by
  intro s hs
  obtain ⟨n, hn, rfl⟩ := Option.map_eq_some_iff.1 hs
  exact Number.isPhrase_text (h n hn) hword

theorem readClauseNumber_text (keyword : String) (hword : Number.ofText? keyword.toList = none)
    (h : ∀ n ∈ seconds, n.isFinite) :
    readClauseNumber ⟨subject, ((seconds.map Number.text).map fun t =>
      (keyword.toList, words t)).toList⟩ keyword = .ok seconds := by
  rw [readClauseNumber, clause?_toList]
  cases seconds with
  | none => rfl
  | some n =>
    have hn := h n rfl
    have hphrase := Number.isPhrase_text hn hword
    have hread := readNumber_of_trim hn (trim_of_isWord (Number.isWord_text hn))
    simp only [Option.map_some, hphrase.joined, hread]
    rfl

theorem read_trim_pause {n : Number} (hn : n.isFinite = true) :
    read (trim (led "pause " n.text)) = .ok (.simple (.pause (some n))) := by
  have htrim := trim_of_isWord (Number.isWord_text hn)
  have hspace : trim (' ' :: n.text) = n.text := by rw [trim_cons_of_blank rfl, htrim]
  have hfull : ¬n.text.isEmpty := by
    rw [List.isEmpty_iff]
    exact Number.text_ne_nil hn
  rw [trim_led rfl (Number.text_ne_nil hn) (endsPlain_of_trim htrim), read_pause, hspace,
    if_neg hfull, readNumber_of_trim hn hspace]
  rfl

theorem read_trim_stopMusic (h : ∀ n ∈ seconds, n.isFinite) :
    read (trim (led "stop music" (clause "fadeout" (seconds.map Number.text)))) =
      .ok (.simple (.stopMusic seconds)) := by
  cases seconds with
  | none => rfl
  | some n =>
    have ht := isPhrase_of_mem_map_text "fadeout" h rfl
    have hends := endsPlain_append_clause "fadeout" endsPlain_nil ht
    have hne : clause "fadeout" ((some n).map Number.text) ≠ [] := List.cons_ne_nil _ _
    have hread : read (led "stop music" (clause "fadeout" ((some n).map Number.text))) =
        (readClauseNumber (readClauses ["fadeout"] (clause "fadeout" ((some n).map Number.text)))
          "fadeout").map fun fadeOut => .simple (.stopMusic fadeOut) := read_stopMusic _
    rw [trim_led rfl hne hends, hread, readClauses_clause (by decide) ht,
      readClauseNumber_text "fadeout" rfl h]
    rfl

theorem read_trim_playMusic (h : ∀ n ∈ seconds, n.isFinite) :
    read (trim (led "play music " (Quoted.literal file.toList ++
      clause "fadein" (seconds.map Number.text)))) =
      .ok (.simple (.playMusic file seconds)) := by
  have ht := isPhrase_of_mem_map_text "fadein" h rfl
  have hclause := readClauses_clause (by decide) ht
  have hends := endsPlain_append_clause "fadein" (@endsPlain_literal file.toList) ht
  have hne : Quoted.literal file.toList ++ clause "fadein" (seconds.map Number.text) ≠ [] :=
    List.cons_ne_nil _ _
  rw [trim_led rfl hne hends, read_playMusic, trim_literal_append hends,
    Quoted.read?_literal, Option.getD_some]
  simp only [hclause, readClauseNumber_text "fadein" rfl h, String.ofList_toList]
  rfl

end Numbers

section Values

variable {name value label : String} {call : Call}

theorem read_trim_jump (hne : label.toList ≠ []) (htidy : IsTidy label.toList) :
    read (trim (led "jump " label.toList)) = .ok (.simple (.jump label)) := by
  rw [trim_led rfl hne (endsPlain_of_trim htidy.trimmed), read_jump,
    htidy.trimmed, String.ofList_toList]

theorem cutAt?_equals {name : List Char} (h : '=' ∉ name) (tail : List Char) :
    cutAt? '=' (name ++ ' ' :: '=' :: tail) = some (name ++ [' '], tail) := by
  have hname : '=' ∉ name ++ [' '] := by simpa using h
  simpa using cutAt?_append hname tail

theorem trim_space {s : List Char} (h : trim s = s) : trim (' ' :: s) = s := by
  rw [trim_cons_of_blank rfl, h]

theorem trim_concat_space {s : List Char} (h : trim s = s) : trim (s ++ [' ']) = s := by
  rw [trim_concat_of_blank rfl, h]

theorem read_trim_definition (hname : IsTidy name.toList) (hequals : '=' ∉ name.toList)
    (hvalue : IsTidy value.toList) (hlooks : Call.looksLikeCall value)
    (hcall : Call.read value = .ok call) :
    read (trim (led "define " (name.toList ++ led " = " value.toList))) =
      .ok (.simple (.define name value (some call))) := by
  have hne : value.toList ≠ [] := by
    intro hnil
    rw [Call.looksLikeCall, hnil] at hlooks
    cases hlooks
  have hends : EndsPlain (name.toList ++ led " = " value.toList) :=
    endsPlain_append (List.cons_ne_nil _ _)
      (endsPlain_append hne (endsPlain_of_trim hvalue.trimmed))
  have hcut : cutAt? '=' (name.toList ++ led " = " value.toList) =
      some (name.toList ++ [' '], ' ' :: value.toList) := cutAt?_equals hequals _
  rw [trim_led rfl (by simp [led]) hends, read_define]
  simp only [hcut, trim_concat_space hname.trimmed, trim_space hvalue.trimmed,
    String.ofList_toList, hlooks, hcall, if_true]

theorem read_assignment_of_trim {tail : List Char} (hne : name.toList ≠ [])
    (hname : name.toList.all isNameChar) (htail : trim tail = value.toList) :
    read (led "$ " (name.toList ++ ' ' :: '=' :: tail)) =
      .ok (.simple (.define name value none)) := by
  have hequals : '=' ∉ name.toList := by
    intro hmem
    exact absurd (List.all_eq_true.1 hname _ hmem) (by decide +kernel)
  have htrim : trim name.toList = name.toList :=
    trim_eq_self_iff.2
      ⟨fun c hc => isBlank_of_isNameChar (List.all_eq_true.1 hname c (List.mem_of_mem_head? hc)),
        fun c hc => isBlank_of_isNameChar (List.all_eq_true.1 hname c (List.mem_of_getLast? hc))⟩
  have hfull : name.toList.isEmpty = false := by
    rwa [Bool.eq_false_iff, ne_eq, List.isEmpty_iff]
  rw [read_assignment]
  simp only [cutAt?_equals hequals, trim_concat_space htrim, htail, hname, hfull,
    String.ofList_toList]
  rfl

theorem read_trim_assignment (hne : name.toList ≠ []) (hname : name.toList.all isNameChar)
    (hvalue : IsTidy value.toList) :
    read (trim (led "$ " (name.toList ++ led " = " value.toList))) =
      .ok (.simple (.define name value none)) := by
  have hequals : name.toList ++ led " = " value.toList =
      name.toList ++ [' ', '='] ++ ' ' :: value.toList := by
    rw [List.append_assoc]
    rfl
  rw [hequals]
  rcases eq_or_ne value.toList [] with hnil | hfull
  · have hends : EndsPlain (name.toList ++ [' ', '=']) :=
      endsPlain_append (List.cons_ne_nil _ _) (endsPlain_concat (s := [' ']) rfl)
    rw [hnil, led, ← List.append_assoc, trim_concat_of_blank rfl]
    rw [← led, trim_led rfl (by simp) hends]
    exact read_assignment_of_trim hne hname (by rw [hnil]; rfl)
  · have hends := @endsPlain_append (name.toList ++ [' ', '='] ++ [' ']) _ hfull
      (endsPlain_of_trim hvalue.trimmed)
    rw [List.append_assoc, List.singleton_append] at hends
    rw [trim_led rfl (by simp) hends, List.append_assoc]
    exact read_assignment_of_trim hne hname (trim_space hvalue.trimmed)

end Values

end StoryScript.Script.Statement
