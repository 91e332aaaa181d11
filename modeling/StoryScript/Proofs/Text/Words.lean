import Mathlib.Tactic.Common
import StoryScript.Proofs.Text.Trim
import StoryScript.Text.Words

/-! # Words and clauses

Words without blanks and quotes, joined by single spaces, are taken apart again, and so are
clauses whose keywords occur nowhere else. Whatever is taken from a text is made of its characters.
-/

namespace StoryScript.Text

/-- A word without blanks and quotes. -/
structure IsWord (word : List Char) : Prop where
  nonempty : word ≠ []
  plain : ∀ c ∈ word, isBlank c = false ∧ Quoted.isQuote c = false

instance (word : List Char) : Decidable (IsWord word) :=
  decidable_of_iff (word ≠ [] ∧ word.all (fun c => !isBlank c && !Quoted.isQuote c) = true) <| by
    simp only [List.all_eq_true, Bool.and_eq_true, Bool.not_eq_true']
    exact ⟨fun h => ⟨h.1, h.2⟩, fun h => ⟨h.1, h.2⟩⟩

theorem trim_of_isWord {word : List Char} (h : IsWord word) : trim word = word :=
  trim_eq_self_iff.2 ⟨fun c hc => (h.plain c (List.mem_of_mem_head? hc)).1,
    fun c hc => (h.plain c (List.mem_of_getLast? hc)).1⟩

section Join

variable {separator c : Char} {parts : List (List Char)}

/-- The characters of parts that are joined are those of the parts and the one between them. -/
theorem eq_or_of_mem_intercalate (h : c ∈ [separator].intercalate parts) :
    c = separator ∨ ∃ part ∈ parts, c ∈ part := by
  induction parts with
  | nil => cases h
  | cons part parts ih =>
    cases parts with
    | nil =>
      rw [List.intercalate_singleton] at h
      exact .inr ⟨part, List.mem_cons_self, h⟩
    | cons next parts =>
      rw [List.intercalate_cons_cons, List.append_assoc, List.mem_append, List.mem_append,
        List.mem_singleton] at h
      rcases h with h | h | h
      · exact .inr ⟨part, List.mem_cons_self, h⟩
      · exact .inl h
      · exact (ih h).imp_right fun ⟨other, hother, hc⟩ =>
          ⟨other, List.mem_cons_of_mem _ hother, hc⟩

theorem mem_intercalate {part : List Char} (hpart : part ∈ parts) (h : c ∈ part) :
    c ∈ [separator].intercalate parts := by
  induction parts with
  | nil => cases hpart
  | cons first parts ih =>
    cases parts with
    | nil =>
      rw [List.intercalate_singleton]
      rwa [← List.mem_singleton.1 hpart]
    | cons next parts =>
      rw [List.intercalate_cons_cons, List.append_assoc]
      rcases List.mem_cons.1 hpart with rfl | hpart
      · exact List.mem_append_left _ h
      · exact List.mem_append_right _ (List.mem_append_right _ (ih hpart))

end Join

def IsSpaced (s : List Char) : Prop :=
  ∀ c ∈ s.head?, c = ' '

section Split

variable {word : List Char} {ws : List (List Char)} {s : List Char}

theorem isSpaced_nil : IsSpaced [] := nofun

theorem isSpaced_cons : IsSpaced (' ' :: s) := by
  rintro _ ⟨⟩
  rfl

theorem splitWords_append (h : ∀ c ∈ word, isBlank c = false ∧ Quoted.isQuote c = false) :
    splitWords none (word ++ s) = (word ++ (splitWords none s).1, (splitWords none s).2) := by
  induction word with
  | nil => rfl
  | cons c word ih =>
    obtain ⟨hblank, hquote⟩ := h c List.mem_cons_self
    rw [List.cons_append, splitWords, hquote, hblank,
      ih fun other hother => h other (List.mem_cons_of_mem _ hother)]
    rfl

theorem splitWords_space : splitWords none (' ' :: s) = ([], words s) := by
  rw [splitWords, if_neg (by decide), if_pos (by decide)]
  rfl

theorem words_space : words (' ' :: s) = words s := by
  rw [words, splitWords_space]
  rfl

theorem splitWords_of_isSpaced (h : IsSpaced s) : splitWords none s = ([], words s) := by
  cases s with
  | nil => rfl
  | cons c s =>
    obtain rfl := h c rfl
    rw [splitWords_space, words_space]

theorem words_append (h : IsWord word) (hs : IsSpaced s) : words (word ++ s) = word :: words s := by
  obtain ⟨c, word, rfl⟩ := List.exists_cons_of_ne_nil h.nonempty
  rw [words, splitWords_append h.plain, splitWords_of_isSpaced hs, List.append_nil]
  rfl

theorem unwords_singleton (word : List Char) : unwords [word] = word := by
  simp [unwords]

theorem unwords_cons (word : List Char) (h : ws ≠ []) :
    unwords (word :: ws) = word ++ ' ' :: unwords ws := by
  cases ws with
  | nil => exact absurd rfl h
  | cons next ws => simp [unwords, List.intercalate]

theorem words_unwords_append (h : ∀ word ∈ ws, IsWord word) (hs : IsSpaced s) :
    words (unwords ws ++ s) = ws ++ words s := by
  induction ws with
  | nil => rfl
  | cons word ws ih =>
    have hword := h word List.mem_cons_self
    have hlater := fun other hother => h other (List.mem_cons_of_mem _ hother)
    cases ws with
    | nil => rw [unwords_singleton, words_append hword hs, List.singleton_append]
    | cons next ws =>
      rw [unwords_cons word (List.cons_ne_nil _ _), List.append_assoc, List.cons_append,
        words_append hword isSpaced_cons, words_space, ih hlater]
      rfl

theorem mem_consWord {first : List Char} (h : word ∈ consWord first ws) :
    word ≠ [] ∧ word = first ∨ word ∈ ws := by
  cases first with
  | nil => exact .inr h
  | cons c first =>
    rcases List.mem_cons.1 h with rfl | h
    · exact .inl ⟨List.cons_ne_nil _ _, rfl⟩
    · exact .inr h

/-- The parts of a text that is split are made of its characters. -/
theorem subset_splitWords (quote? : Option Char) (s : List Char) :
    (splitWords quote? s).1 ⊆ s ∧ ∀ word ∈ (splitWords quote? s).2, word ≠ [] ∧ word ⊆ s := by
  induction s generalizing quote? with
  | nil => cases quote? <;> exact ⟨List.Subset.refl _, nofun⟩
  | cons c s ih =>
    have hcons : ∀ quote? : Option Char, c :: (splitWords quote? s).1 ⊆ c :: s ∧
        ∀ word ∈ (splitWords quote? s).2, word ≠ [] ∧ word ⊆ c :: s := fun quote? =>
      ⟨List.cons_subset_cons c (ih quote?).1, fun word hword =>
        ⟨((ih quote?).2 word hword).1, List.subset_cons_of_subset c ((ih quote?).2 word hword).2⟩⟩
    cases quote? with
    | some quote => exact hcons _
    | none =>
      rw [splitWords]
      split
      · exact hcons _
      · split
        · refine ⟨List.nil_subset _, fun word hword => ?_⟩
          rcases mem_consWord hword with ⟨hne, rfl⟩ | hword
          · exact ⟨hne, List.subset_cons_of_subset c (ih none).1⟩
          · exact (hcons none).2 word hword
        · exact hcons none

theorem mem_words (h : word ∈ words s) : word ≠ [] ∧ word ⊆ s := by
  rcases mem_consWord h with ⟨hne, rfl⟩ | hword
  · exact ⟨hne, (subset_splitWords none s).1⟩
  · exact (subset_splitWords none s).2 word hword

theorem unwords_ne_nil (hne : ws ≠ []) (h : ∀ word ∈ ws, word ≠ []) : unwords ws ≠ [] := by
  obtain ⟨word, ws, rfl⟩ := List.exists_cons_of_ne_nil hne
  have hword := h word List.mem_cons_self
  rcases eq_or_ne ws [] with rfl | hlater
  · rwa [unwords_singleton]
  · rw [unwords_cons word hlater]
    exact List.append_ne_nil_of_left_ne_nil hword _

end Split

section Phrases

/-- Words joined by single spaces, none of them a keyword. -/
structure IsPhrase (keywords : List (List Char)) (s : List Char) : Prop where
  nonempty : s ≠ []
  words : ∀ word ∈ words s, IsWord word ∧ word ∉ keywords
  joined : unwords (Text.words s) = s

variable {keywords : List (List Char)} {s tail : List Char}

instance : Decidable (IsPhrase keywords s) :=
  decidable_of_iff
    (s ≠ [] ∧ (∀ word ∈ words s, IsWord word ∧ word ∉ keywords) ∧ unwords (words s) = s)
    ⟨fun h => ⟨h.1, h.2.1, h.2.2⟩, fun h => ⟨h.1, h.2, h.3⟩⟩

theorem isPhrase_unwords {ws : List (List Char)} (hne : ws ≠ [])
    (h : ∀ word ∈ ws, IsWord word ∧ word ∉ keywords) : IsPhrase keywords (unwords ws) := by
  have hwords : words (unwords ws) = ws := by
    have := words_unwords_append (fun word hword => (h word hword).1) isSpaced_nil
    rwa [List.append_nil, show words [] = [] from rfl, List.append_nil] at this
  refine ⟨fun hnil => ?_, by rwa [hwords], by rw [hwords]⟩
  rw [hnil] at hwords
  exact hne hwords.symm

theorem words_append_of_isPhrase (h : IsPhrase keywords s) (htail : IsSpaced tail) :
    words (s ++ tail) = words s ++ words tail := by
  have := words_unwords_append (fun word hword => (h.words word hword).1) htail
  rwa [h.joined] at this

theorem words_ne_nil_of_isPhrase (h : IsPhrase keywords s) : words s ≠ [] := by
  intro hnil
  have := h.joined
  rw [hnil] at this
  exact h.nonempty this.symm

theorem eq_space_or_of_mem_unwords {ws : List (List Char)} {c : Char} (h : c ∈ unwords ws) :
    c = ' ' ∨ ∃ word ∈ ws, c ∈ word :=
  eq_or_of_mem_intercalate h

theorem eq_space_or_of_mem_phrase {c : Char} (h : IsPhrase keywords s) (hc : c ∈ s) :
    c = ' ' ∨ isBlank c = false := by
  rw [← h.joined] at hc
  refine (eq_space_or_of_mem_unwords hc).imp_right ?_
  rintro ⟨word, hword, hc⟩
  exact ((h.words word hword).1.plain c hc).1

theorem getLast_suffix_unwords {ws : List (List Char)} (hne : ws ≠ []) :
    ws.getLast hne <:+ unwords ws := by
  induction ws with
  | nil => exact absurd rfl hne
  | cons word ws ih =>
    rcases eq_or_ne ws [] with rfl | hlater
    · rw [unwords_singleton]
      exact List.suffix_refl _
    · rw [unwords_cons word hlater, List.getLast_cons hlater]
      exact (ih hlater).trans ⟨word ++ [' '], by rw [List.append_assoc, List.singleton_append]⟩

theorem endsPlain_of_isPhrase (h : IsPhrase keywords s) : EndsPlain s := by
  intro c hc
  have hne := words_ne_nil_of_isPhrase h
  obtain ⟨hword, -⟩ := h.words _ (List.getLast_mem hne)
  have hsuffix := getLast_suffix_unwords hne
  rw [h.joined] at hsuffix
  obtain ⟨hs, rfl⟩ := List.mem_getLast?_eq_getLast hc
  rw [← hsuffix.getLast hword.nonempty]
  exact (hword.plain _ (List.getLast_mem _)).1

end Phrases

namespace Clauses

variable {keywords : List (List Char)} {ws later : List (List Char)} {word s : List Char}

theorem ofWords_append (h : ∀ word ∈ ws, word ∉ keywords) :
    ofWords keywords (ws ++ later) =
      ⟨ws ++ (ofWords keywords later).subject, (ofWords keywords later).stretches⟩ := by
  induction ws with
  | nil => rfl
  | cons word ws ih =>
    have hword : keywords.contains word = false := by
      simpa using h word List.mem_cons_self
    rw [List.cons_append, ofWords, hword,
      ih fun other hother => h other (List.mem_cons_of_mem _ hother)]
    rfl

theorem ofWords_keyword (h : word ∈ keywords) :
    ofWords keywords (word :: ws) =
      ⟨[], (word, (ofWords keywords ws).subject) :: (ofWords keywords ws).stretches⟩ := by
  have hword : keywords.contains word = true := by simpa using h
  rw [ofWords, hword]
  rfl

theorem mem_of_mem_ofWords :
    (∀ word ∈ (ofWords keywords ws).subject, word ∈ ws) ∧
      ∀ stretch ∈ (ofWords keywords ws).stretches, ∀ word ∈ stretch.2, word ∈ ws := by
  induction ws with
  | nil => exact ⟨nofun, nofun⟩
  | cons word ws ih =>
    have hsubject : ∀ other ∈ (ofWords keywords ws).subject, other ∈ word :: ws :=
      fun other hother => List.mem_cons_of_mem _ (ih.1 other hother)
    have hstretches : ∀ stretch ∈ (ofWords keywords ws).stretches, ∀ other ∈ stretch.2,
        other ∈ word :: ws :=
      fun stretch hstretch other hother =>
        List.mem_cons_of_mem _ (ih.2 stretch hstretch other hother)
    rw [ofWords]
    split
    · exact ⟨nofun, List.forall_mem_cons.2 ⟨hsubject, hstretches⟩⟩
    · exact ⟨List.forall_mem_cons.2 ⟨List.mem_cons_self, hsubject⟩, hstretches⟩

theorem mem_words_of_mem_subject (h : word ∈ (read keywords s).subject) : word ∈ words s :=
  mem_of_mem_ofWords.1 word h

theorem mem_words_of_clause? {keyword : List Char} {found : List (List Char)}
    (h : (read keywords s).clause? keyword = some found) : ∀ word ∈ found, word ∈ words s := by
  intro word hword
  unfold clause? at h
  split at h
  · cases h
  · cases h
    obtain ⟨stretch, hstretch, hmem⟩ := List.mem_flatMap.1 hword
    exact mem_of_mem_ofWords.2 stretch (List.mem_of_mem_filter hstretch) word hmem

end Clauses

end StoryScript.Text
