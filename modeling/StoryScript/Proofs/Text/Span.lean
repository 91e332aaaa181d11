import Mathlib.Tactic.Common
import StoryScript.Proofs.Text.Cut
import StoryScript.Proofs.Text.Words

/-! # Spans between quotes

Quotes divide every text in one way into spans: characters outside quotes, stretches between two
quotes of one kind, and at most one stretch at the end whose quote is not closed. Words are what
stands between blanks that are spans of their own. So a word is made of whole spans, the words
together are the text without those blanks, and words that are joined are taken apart again.
-/

namespace StoryScript.Text

inductive Span where
  /-- A character outside quotes. -/
  | plain (c : Char)
  /-- The characters between two quotes of one kind. -/
  | quoted (quote : Char) (inside : List Char)
  /-- The characters after a quote that is not closed. -/
  | unclosed (quote : Char) (inside : List Char)
deriving DecidableEq, Repr

namespace Span

def text : Span → List Char
  | plain c => [c]
  | quoted quote inside => quote :: (inside ++ [quote])
  | unclosed quote inside => quote :: inside

def texts (spans : List Span) : List Char :=
  spans.flatMap text

def isGap : Span → Bool
  | plain c => isBlank c
  | quoted _ _ => false
  | unclosed _ _ => false

def isClosed : Span → Bool
  | plain _ => true
  | quoted _ _ => true
  | unclosed _ _ => false

@[simp] theorem texts_nil : texts [] = [] := rfl

@[simp] theorem texts_cons (span : Span) (spans : List Span) :
    texts (span :: spans) = span.text ++ texts spans :=
  List.flatMap_cons

theorem text_ne_nil (span : Span) : span.text ≠ [] := by
  cases span <;> exact List.cons_ne_nil _ _

theorem texts_eq_nil_iff {spans : List Span} : texts spans = [] ↔ spans = [] := by
  cases spans with
  | nil => simp
  | cons span spans => simp [text_ne_nil span]

theorem texts_flatten (groups : List (List Span)) :
    texts groups.flatten = (groups.map texts).flatten := by
  induction groups with
  | nil => rfl
  | cons group groups ih =>
    rw [List.flatten_cons, texts, List.flatMap_append, List.map_cons, List.flatten_cons, ← ih]
    rfl

end Span

/-- The spans into which quotes divide a text. -/
inductive DividesInto : List Char → List Span → Prop where
  | nil : DividesInto [] []
  | plain {c : Char} {s : List Char} {spans : List Span} (hc : Quoted.isQuote c = false) :
      DividesInto s spans → DividesInto (c :: s) (.plain c :: spans)
  | quoted {quote : Char} {inside s : List Char} {spans : List Span}
      (hquote : Quoted.isQuote quote = true) (hinside : quote ∉ inside) :
      DividesInto s spans →
        DividesInto (quote :: (inside ++ quote :: s)) (.quoted quote inside :: spans)
  | unclosed {quote : Char} {inside : List Char} (hquote : Quoted.isQuote quote = true)
      (hinside : quote ∉ inside) : DividesInto (quote :: inside) [.unclosed quote inside]

section Divides

variable {s t : List Char} {spans others : List Span} {c : Char}

theorem DividesInto.eq_texts (h : DividesInto s spans) : s = Span.texts spans := by
  induction h with
  | nil => rfl
  | plain _ _ ih => rw [Span.texts_cons, ← ih, Span.text, List.singleton_append]
  | quoted _ _ _ ih => simp [Span.text, ← ih]
  | unclosed => simp [Span.text]

theorem exists_dividesInto (s : List Char) : ∃ spans, DividesInto s spans := by
  match s with
  | [] => exact ⟨[], .nil⟩
  | c :: s =>
    cases hquote : Quoted.isQuote c with
    | false =>
      obtain ⟨spans, h⟩ := exists_dividesInto s
      exact ⟨_, .plain hquote h⟩
    | true =>
      by_cases hmem : c ∈ s
      · obtain ⟨inside, rest, rfl, hinside⟩ := List.eq_append_cons_of_mem hmem
        obtain ⟨spans, h⟩ := exists_dividesInto rest
        exact ⟨_, .quoted hquote hinside h⟩
      · exact ⟨_, .unclosed hquote hmem⟩
termination_by s.length
decreasing_by
  all_goals subst_vars
  all_goals simp only [List.length_cons, List.length_append]
  all_goals omega

theorem dividesInto_nil_iff : DividesInto [] spans ↔ spans = [] := by
  constructor
  · rintro ⟨⟩
    rfl
  · rintro rfl
    exact .nil

theorem dividesInto_plain_iff (hc : Quoted.isQuote c = false) :
    DividesInto (c :: s) spans ↔ ∃ later, spans = .plain c :: later ∧ DividesInto s later := by
  constructor
  · intro h
    cases h with
    | plain _ h => exact ⟨_, rfl, h⟩
    | quoted hquote => rw [hc] at hquote; cases hquote
    | unclosed hquote => rw [hc] at hquote; cases hquote
  · rintro ⟨later, rfl, h⟩
    exact .plain hc h

theorem dividesInto_quote_iff (hquote : Quoted.isQuote c = true) :
    DividesInto (c :: s) spans ↔
      (∃ inside rest later, c ∉ inside ∧ s = inside ++ c :: rest ∧
        spans = .quoted c inside :: later ∧ DividesInto rest later) ∨
      c ∉ s ∧ spans = [.unclosed c s] := by
  constructor
  · intro h
    cases h with
    | plain hc => rw [hquote] at hc; cases hc
    | quoted _ hinside h => exact .inl ⟨_, _, _, hinside, rfl, rfl, h⟩
    | unclosed _ hinside => exact .inr ⟨hinside, rfl⟩
  · rintro (⟨inside, rest, later, hinside, rfl, rfl, h⟩ | ⟨hinside, rfl⟩)
    · exact .quoted hquote hinside h
    · exact .unclosed hquote hinside

/-- A text is divided in one way only. -/
theorem DividesInto.unique (h : DividesInto s spans) (hother : DividesInto s others) :
    others = spans := by
  induction h generalizing others with
  | nil => exact dividesInto_nil_iff.1 hother
  | plain hc _ ih =>
    obtain ⟨later, rfl, hlater⟩ := (dividesInto_plain_iff hc).1 hother
    rw [ih hlater]
  | @quoted quote inside s spans hquote hinside _ ih =>
    rcases (dividesInto_quote_iff hquote).1 hother with
      ⟨inside', rest, later, hinside', hsplit, rfl, hlater⟩ | ⟨hnot, -⟩
    · -- Both cut the text at its first quote of that kind.
      have hcut := cutAt?_append hinside s
      rw [hsplit, cutAt?_append hinside'] at hcut
      obtain ⟨rfl, rfl⟩ : inside' = inside ∧ rest = s := by simpa using hcut
      rw [ih hlater]
    · exact absurd (List.mem_append_right _ List.mem_cons_self) hnot
  | unclosed hquote hinside =>
    rcases (dividesInto_quote_iff hquote).1 hother with ⟨_, _, _, _, rfl, _⟩ | ⟨-, rfl⟩
    · exact absurd (List.mem_append_right _ List.mem_cons_self) hinside
    · rfl

theorem DividesInto.iff_eq (h : DividesInto s spans) : DividesInto s others ↔ others = spans := by
  refine ⟨h.unique, ?_⟩
  rintro rfl
  exact h

theorem DividesInto.pairwise (h : DividesInto s spans) :
    spans.Pairwise fun span _ => span.isClosed = true := by
  induction h with
  | nil => exact .nil
  | plain _ _ ih => exact List.pairwise_cons.2 ⟨fun _ _ => rfl, ih⟩
  | quoted _ _ _ ih => exact List.pairwise_cons.2 ⟨fun _ _ => rfl, ih⟩
  | unclosed => exact List.pairwise_singleton _ _

/-- Some of the spans of a text are the spans of a text themselves. -/
theorem DividesInto.sublist (h : DividesInto s spans) (hsub : others.Sublist spans) :
    DividesInto (Span.texts others) others := by
  induction h generalizing others with
  | nil =>
    obtain rfl := List.sublist_nil.1 hsub
    exact .nil
  | plain hc _ ih =>
    cases hsub with
    | cons _ hlater => exact ih hlater
    | cons_cons _ hlater => exact .plain hc (ih hlater)
  | @quoted quote inside _ _ hquote hinside _ ih =>
    cases hsub with
    | cons _ hlater => exact ih hlater
    | @cons_cons later _ _ hlater =>
      have hlater := DividesInto.quoted hquote hinside (ih hlater)
      simpa [Span.text] using hlater
  | @unclosed quote inside hquote hinside =>
    cases hsub with
    | cons _ hlater =>
      obtain rfl := List.sublist_nil.1 hlater
      exact .nil
    | cons_cons _ hlater =>
      obtain rfl := List.sublist_nil.1 hlater
      simpa [Span.text] using DividesInto.unclosed hquote hinside

theorem DividesInto.append (h : DividesInto s spans)
    (hclosed : ∀ span ∈ spans, span.isClosed = true) (hlater : DividesInto t others) :
    DividesInto (s ++ t) (spans ++ others) := by
  induction h with
  | nil => exact hlater
  | plain hc _ ih => exact .plain hc (ih (List.forall_mem_cons.1 hclosed).2)
  | quoted hquote hinside _ ih =>
    have hspans := DividesInto.quoted hquote hinside (ih (List.forall_mem_cons.1 hclosed).2)
    simpa using hspans
  | unclosed => cases hclosed _ List.mem_cons_self

theorem DividesInto.eq_map_plain (h : DividesInto s spans)
    (hplain : ∀ c ∈ s, Quoted.isQuote c = false) : spans = s.map .plain := by
  refine DividesInto.unique ?_ h
  clear h
  induction s with
  | nil => exact .nil
  | cons c s ih =>
    obtain ⟨hc, hs⟩ := List.forall_mem_cons.1 hplain
    exact .plain hc (ih hs)

end Divides

/-! ## Words between gaps -/

section Words

variable {s word : List Char} {spans group : List Span} {quote : Char} {ws : List (List Char)}

def wordsBetween (groups : List (List Span)) : List (List Char) :=
  (groups.filter (!·.isEmpty)).map Span.texts

theorem consWord_texts (group : List Span) (groups : List (List Span)) :
    consWord (Span.texts group) (wordsBetween groups) = wordsBetween (group :: groups) := by
  cases group with
  | nil => rfl
  | cons span group =>
    obtain ⟨c, word, hword⟩ := List.exists_cons_of_ne_nil
      (mt Span.texts_eq_nil_iff.1 (List.cons_ne_nil span group))
    rw [hword, consWord, ← hword]
    · rfl
    · exact List.cons_ne_nil c word

theorem splitWords_inside (h : quote ∉ s) (rest : List Char) :
    splitWords (some quote) (s ++ rest) =
      (s ++ (splitWords (some quote) rest).1, (splitWords (some quote) rest).2) := by
  induction s with
  | nil => rfl
  | cons c s ih =>
    obtain ⟨hc, hs⟩ := not_or.1 (mt List.mem_cons.2 h)
    rw [List.cons_append, splitWords, if_neg (Ne.symm hc), ih hs]
    rfl

theorem DividesInto.splitWords_eq (h : DividesInto s spans) :
    ∃ first groups, spans.splitOnP Span.isGap = first :: groups ∧
      splitWords none s = (Span.texts first, wordsBetween groups) := by
  induction h with
  | nil => exact ⟨[], [], rfl, rfl⟩
  | @plain c s spans hc _ ih =>
    obtain ⟨first, groups, hsplit, hwords⟩ := ih
    rw [List.splitOnP_cons_eq_if_modifyHead, hsplit, splitWords, hc, hwords]
    cases hblank : isBlank c with
    | true =>
      refine ⟨[], first :: groups, by rw [if_pos]; exact hblank, ?_⟩
      rw [← consWord_texts]
      rfl
    | false =>
      refine ⟨.plain c :: first, groups, ?_, rfl⟩
      rw [if_neg]
      · rfl
      · simpa [Span.isGap] using hblank
  | @quoted quote inside s spans hquote hinside _ ih =>
    obtain ⟨first, groups, hsplit, hwords⟩ := ih
    rw [List.splitOnP_cons_eq_if_modifyHead, hsplit, splitWords, if_pos hquote,
      splitWords_inside hinside, splitWords, if_pos rfl, hwords]
    refine ⟨.quoted quote inside :: first, groups, rfl, ?_⟩
    simp [Span.text]
  | @unclosed quote inside hquote hinside =>
    have hwords := splitWords_inside hinside []
    rw [List.append_nil] at hwords
    rw [splitWords, if_pos hquote, hwords]
    refine ⟨[.unclosed quote inside], [], rfl, ?_⟩
    simp [Span.text, splitWords, wordsBetween]

theorem DividesInto.words_eq (h : DividesInto s spans) :
    words s = wordsBetween (spans.splitOnP Span.isGap) := by
  obtain ⟨first, groups, hsplit, hwords⟩ := h.splitWords_eq
  rw [words, hwords, hsplit]
  exact consWord_texts first groups

theorem flatten_splitOnP_isGap (spans : List Span) :
    (spans.splitOnP Span.isGap).flatten = spans.filter (!·.isGap) := by
  induction spans with
  | nil => rfl
  | cons span spans ih =>
    obtain ⟨first, groups, hsplit⟩ := List.exists_cons_of_ne_nil
      (List.splitOnP_ne_nil Span.isGap spans)
    rw [hsplit] at ih
    rw [List.splitOnP_cons_eq_if_modifyHead, hsplit]
    cases hgap : span.isGap with
    | true => simpa [hgap] using ih
    | false => simpa [hgap] using ih

theorem DividesInto.flatten_words (h : DividesInto s spans) :
    (words s).flatten = Span.texts (spans.filter (!·.isGap)) := by
  rw [h.words_eq, wordsBetween, ← Span.texts_flatten, List.flatten_filter_not_isEmpty,
    flatten_splitOnP_isGap]

/-- Whether a text can be a word: it is not empty and no gap breaks it. -/
def IsUnbroken (s : List Char) : Prop :=
  s ≠ [] ∧ ∃ spans, DividesInto s spans ∧ ∀ span ∈ spans, span.isGap = false

/-- Whether every quote in a text is closed. -/
def ClosesQuotes (s : List Char) : Prop :=
  ∃ spans, DividesInto s spans ∧ ∀ span ∈ spans, span.isClosed = true

theorem IsUnbroken.words_eq (h : IsUnbroken word) : words word = [word] := by
  obtain ⟨hne, group, hgroup, hgaps⟩ := h
  have hspans : group ≠ [] := by
    rintro rfl
    exact hne hgroup.eq_texts
  rw [hgroup.words_eq, List.splitOnP_eq_singleton hgaps, hgroup.eq_texts]
  simp [wordsBetween, hspans]

theorem ClosesQuotes.words_append (h : ClosesQuotes word) (s : List Char) :
    words (word ++ ' ' :: s) = words word ++ words s := by
  obtain ⟨group, hgroup, hclosed⟩ := h
  obtain ⟨spans, hspans⟩ := exists_dividesInto s
  have hspace := DividesInto.plain (c := ' ') (by decide) hspans
  have hgap : Span.isGap (.plain ' ') = true := by decide
  rw [(hgroup.append hclosed hspace).words_eq, hgroup.words_eq, hspans.words_eq,
    List.splitOnP_append_cons _ _ hgap, wordsBetween, List.filter_append, List.map_append]
  rfl

theorem DividesInto.of_mem_splitOnP (h : DividesInto s spans)
    (hgroup : group ∈ spans.splitOnP Span.isGap) :
    DividesInto (Span.texts group) group ∧ ∀ span ∈ group, span.isGap = false := by
  have hsub := List.sublist_flatten_of_mem hgroup
  rw [flatten_splitOnP_isGap] at hsub
  refine ⟨h.sublist (hsub.trans List.filter_sublist), fun span hspan => ?_⟩
  simpa using (List.mem_filter.1 (hsub.subset hspan)).2

theorem isUnbroken_of_mem_words (h : word ∈ words s) : IsUnbroken word := by
  obtain ⟨spans, hspans⟩ := exists_dividesInto s
  have hne := (mem_words h).1
  rw [hspans.words_eq] at h
  obtain ⟨group, hgroup, rfl⟩ := List.mem_map.1 h
  exact ⟨hne, group, hspans.of_mem_splitOnP (List.mem_of_mem_filter hgroup)⟩

theorem pairwise_words (s : List Char) : (words s).Pairwise fun word _ => ClosesQuotes word := by
  obtain ⟨spans, hspans⟩ := exists_dividesInto s
  have hflatten := hspans.pairwise.filter (!·.isGap)
  rw [← flatten_splitOnP_isGap, ← List.flatten_filter_not_isEmpty, List.pairwise_flatten]
    at hflatten
  rw [hspans.words_eq, wordsBetween, List.pairwise_map]
  refine hflatten.2.imp_of_mem fun {group next} hgroup hnext hclosed => ?_
  -- A span of the next word comes after all spans of this one, so these have an end.
  have hne : next ≠ [] := by simpa using (List.mem_filter.1 hnext).2
  obtain ⟨span, hspan⟩ := List.exists_mem_of_ne_nil next hne
  obtain ⟨hdivides, -⟩ := hspans.of_mem_splitOnP (List.mem_of_mem_filter hgroup)
  exact ⟨group, hdivides, fun first hfirst => hclosed first hfirst span hspan⟩

/-- Some of the words of a text are taken apart again after they have been joined. -/
theorem words_unwords_of_sublist (h : ws.Sublist (words s)) : words (unwords ws) = ws := by
  have hclosed := (pairwise_words s).sublist h
  have hunbroken := fun word hword => isUnbroken_of_mem_words (h.subset (a := word) hword)
  clear h
  induction ws with
  | nil => rfl
  | cons word ws ih =>
    obtain ⟨hfirst, hlater⟩ := List.pairwise_cons.1 hclosed
    obtain ⟨hword, hws⟩ := List.forall_mem_cons.1 hunbroken
    rcases eq_or_ne ws [] with rfl | hne
    · rw [unwords_singleton, hword.words_eq]
    · obtain ⟨next, hnext⟩ := List.exists_mem_of_ne_nil ws hne
      rw [unwords_cons word hne, (hfirst next hnext).words_append, hword.words_eq, ih hlater hws]
      rfl

end Words

end StoryScript.Text
