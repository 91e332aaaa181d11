import StoryScript.Proofs.Text.Cut

/-! # Pieces between words

A separator that is a word between two spaces stands in a text exactly where the word stands
between spaces. So texts that do not hold it, not even together with spaces around them, are given
back when their join is taken apart.
-/

namespace StoryScript.Text

/-- A text between two spaces. -/
def spaced (s : List Char) : List Char :=
  ' ' :: (s ++ [' '])

variable {word other s t : List Char}

theorem spaced_ne_nil (s : List Char) : spaced s ≠ [] :=
  List.cons_ne_nil _ _

theorem word_prefix_iff (hword : ' ' ∉ word) :
    word ++ [' '] <+: s ++ ' ' :: t ↔ word ++ [' '] <+: s ++ [' '] := by
  induction word generalizing s with
  | nil => cases s <;> simp
  | cons c word ih =>
    rw [List.mem_cons, not_or] at hword
    cases s with
    | nil => simp [Ne.symm hword.1]
    | cons d s => simp only [List.cons_append, List.cons_prefix_cons, ih hword.2]

theorem spaced_prefix_iff (hword : ' ' ∉ word) {c : Char} :
    spaced word <+: c :: (s ++ ' ' :: t) ↔ spaced word <+: c :: (s ++ [' ']) := by
  simp only [spaced, List.cons_prefix_cons, word_prefix_iff hword]

theorem spaced_infix_append_iff (hword : ' ' ∉ word) :
    spaced word <:+: s ++ ' ' :: t ↔ spaced word <:+: s ++ [' '] ∨ spaced word <:+: ' ' :: t := by
  constructor
  · intro h
    induction s with
    | nil => exact .inr h
    | cons c s ih =>
      rcases List.infix_cons_iff.1 h with hprefix | hlater
      · exact .inl ((spaced_prefix_iff hword).1 hprefix).isInfix
      · exact (ih hlater).imp_left List.infix_cons
  · rintro (h | h)
    · refine h.trans ⟨[], t, ?_⟩
      rw [List.nil_append, List.append_assoc, List.singleton_append]
    · exact h.trans (List.suffix_append s (' ' :: t)).isInfix

theorem spaced_infix_spaced_append_iff (hword : ' ' ∉ word) :
    spaced word <:+: spaced (s ++ ' ' :: t) ↔
      spaced word <:+: spaced s ∨ spaced word <:+: spaced t := by
  have hsplit : spaced (s ++ ' ' :: t) = ' ' :: s ++ ' ' :: (t ++ [' ']) := by simp [spaced]
  rw [hsplit, spaced_infix_append_iff hword]
  rfl

theorem cut?_spaced (hword : ' ' ∉ word) (h : ¬spaced word <:+: s ++ [' ']) (t : List Char) :
    cut? (spaced word) (s ++ (spaced word ++ t)) = some (s, t) := by
  refine cut?_eq_some_iff.2 ⟨spaced_ne_nil _, rfl, fun front back hsplit => ?_⟩
  rcases List.append_eq_append_iff.1 hsplit with ⟨later, rfl, -⟩ | ⟨middle, rfl, hmiddle⟩
  · rw [List.length_append]
    exact Nat.le_add_right _ _
  · cases middle with
    | nil => exact Nat.le_of_eq (by rw [List.append_nil])
    | cons c middle =>
      have hprefix : spaced word <+: c :: (middle ++ ' ' :: (word ++ [' '] ++ t)) :=
        ⟨back, hmiddle⟩
      have hfound := ((spaced_prefix_iff hword).1 hprefix).isInfix
      refine absurd (hfound.trans (List.suffix_append front _).isInfix) ?_
      rwa [List.append_assoc] at h

section Pieces

variable {separator : List Char}

theorem pieces_eq_singleton (h : ¬separator <:+: s) : pieces separator s = [s] := by
  rw [pieces, cut?_eq_none h]

theorem pieces_of_cut? {before rest : List Char} (h : cut? separator s = some (before, rest)) :
    pieces separator s = before :: pieces separator rest := by
  rw [pieces, h]

theorem pieces_ne_nil (separator s : List Char) : pieces separator s ≠ [] := by
  rw [pieces]
  split
  · exact List.cons_ne_nil _ _
  · exact List.cons_ne_nil _ _

end Pieces

section Join

variable {parts : List (List Char)} {part : List Char}

theorem intercalate_cons (separator : List Char) (hne : parts ≠ []) :
    separator.intercalate (part :: parts) = part ++ (separator ++ separator.intercalate parts) := by
  obtain ⟨next, parts, rfl⟩ := List.exists_cons_of_ne_nil hne
  rw [List.intercalate_cons_cons, List.append_assoc]

theorem not_spaced_infix_intercalate (hword : ' ' ∉ word) (hother : ¬spaced word <:+: spaced other)
    (hne : parts ≠ []) (h : ∀ part ∈ parts, ¬spaced word <:+: spaced part) :
    ¬spaced word <:+: spaced ((spaced other).intercalate parts) := by
  induction parts with
  | nil => exact absurd rfl hne
  | cons part parts ih =>
    obtain ⟨hpart, hparts⟩ := List.forall_mem_cons.1 h
    rcases eq_or_ne parts [] with rfl | hlater
    · rwa [List.intercalate_singleton]
    · have hsplit : (spaced other).intercalate (part :: parts) =
          part ++ ' ' :: (other ++ ' ' :: (spaced other).intercalate parts) := by
        rw [intercalate_cons _ hlater]
        simp [spaced]
      rw [hsplit, spaced_infix_spaced_append_iff hword, spaced_infix_spaced_append_iff hword]
      rintro (hfound | hfound | hfound)
      · exact hpart hfound
      · exact hother hfound
      · exact ih hlater hparts hfound

theorem pieces_intercalate (hword : ' ' ∉ word) (hne : parts ≠ [])
    (h : ∀ part ∈ parts, ¬spaced word <:+: spaced part) :
    pieces (spaced word) ((spaced word).intercalate parts) = parts := by
  induction parts with
  | nil => exact absurd rfl hne
  | cons part parts ih =>
    obtain ⟨hpart, hparts⟩ := List.forall_mem_cons.1 h
    rcases eq_or_ne parts [] with rfl | hlater
    · rw [List.intercalate_singleton]
      exact pieces_eq_singleton fun hfound => hpart (hfound.trans ⟨[' '], [' '], rfl⟩)
    · have hcut := cut?_spaced hword (fun hfound => hpart (List.infix_cons hfound))
        ((spaced word).intercalate parts)
      rw [intercalate_cons _ hlater, pieces_of_cut? hcut, ih hlater hparts]

end Join

end StoryScript.Text
