import Mathlib.Data.List.TakeDrop
import Mathlib.Tactic.Common
import StoryScript.Text.Cut

/-! # Where texts are cut

A cut finds a pattern exactly if it stands somewhere, and then at its first place; it finds a
character after a text without it. A span is the longest text in front that consists of characters
of a class.
-/

namespace StoryScript.Text

variable {c : Char} {pattern s : List Char}

theorem exists_cut?_eq_some (hne : pattern ≠ []) (h : pattern <:+: s) :
    ∃ before rest, cut? pattern s = some (before, rest) := by
  induction s with
  | nil => exact absurd (List.eq_nil_of_infix_nil h) hne
  | cons c s ih =>
    rw [cut?, if_neg (by simpa using hne)]
    cases hafter : after? pattern (c :: s) with
    | some rest => exact ⟨[], rest, rfl⟩
    | none =>
      rcases List.infix_cons_iff.1 h with ⟨rest, hprefix⟩ | hlater
      · rw [after?_eq_some_iff.2 hprefix.symm] at hafter
        cases hafter
      · obtain ⟨before, rest, hcut⟩ := ih hlater
        exact ⟨c :: before, rest, by simp [hcut]⟩

theorem contains_iff (hne : pattern ≠ []) : contains s pattern = true ↔ pattern <:+: s := by
  rw [contains, Option.isSome_iff_exists]
  constructor
  · rintro ⟨⟨before, rest⟩, hcut⟩
    obtain ⟨-, rfl⟩ := eq_append_of_cut? hcut
    exact ⟨before, rest, rfl⟩
  · intro h
    obtain ⟨before, rest, hcut⟩ := exists_cut?_eq_some hne h
    exact ⟨_, hcut⟩

theorem cut?_eq_none (h : ¬pattern <:+: s) : cut? pattern s = none := by
  cases hcut : cut? pattern s with
  | none => rfl
  | some parts =>
    obtain ⟨-, rfl⟩ := eq_append_of_cut? hcut
    exact absurd ⟨_, _, rfl⟩ h

/-- No place of the pattern is before the one where the text is cut. -/
theorem length_le_of_cut? {before rest front back : List Char}
    (h : cut? pattern s = some (before, rest)) (hs : s = front ++ (pattern ++ back)) :
    before.length ≤ front.length := by
  induction s generalizing before front with
  | nil => simp [cut?] at h
  | cons c s ih =>
    simp only [cut?] at h
    split at h
    · cases h
      exact Nat.zero_le _
    · rename_i hafter
      obtain ⟨⟨later, rest'⟩, hcut, heq⟩ := Option.map_eq_some_iff.1 h
      cases heq
      have hne := (eq_append_of_cut? hcut).1
      cases front with
      | nil =>
        have hfront : after? pattern (c :: s) = some back := after?_eq_some_iff.2 hs
        rw [if_neg (by simpa using hne), hfront] at hafter
        cases hafter
      | cons first front =>
        simp only [List.cons_append, List.cons.injEq] at hs
        exact Nat.succ_le_succ (ih hcut hs.2)

theorem cut?_eq_some_iff {before rest : List Char} :
    cut? pattern s = some (before, rest) ↔
      pattern ≠ [] ∧ s = before ++ (pattern ++ rest) ∧
        ∀ front back, s = front ++ (pattern ++ back) → before.length ≤ front.length := by
  constructor
  · intro h
    obtain ⟨hne, hs⟩ := eq_append_of_cut? h
    exact ⟨hne, by simpa using hs, fun front back => length_le_of_cut? h⟩
  · rintro ⟨hne, hs, hfirst⟩
    have hwithin : pattern <:+: s := ⟨before, rest, by rw [hs, List.append_assoc]⟩
    obtain ⟨before', rest', hcut⟩ := exists_cut?_eq_some hne hwithin
    have hs' : s = before' ++ (pattern ++ rest') := by simpa using (eq_append_of_cut? hcut).2
    have hlength : before.length = before'.length :=
      Nat.le_antisymm (hfirst _ _ hs') (length_le_of_cut? hcut hs)
    obtain ⟨rfl, hrest⟩ := List.append_inj (hs.symm.trans hs') hlength
    rw [hcut, List.append_cancel_left hrest]

theorem cut?_append_of_not_mem (h : c ∉ s) (rest : List Char) :
    cut? (c :: pattern) (s ++ (c :: pattern ++ rest)) = some (s, rest) := by
  refine cut?_eq_some_iff.2 ⟨List.cons_ne_nil _ _, rfl, fun front back hsplit => ?_⟩
  rcases List.append_eq_append_iff.1 hsplit with ⟨later, rfl, -⟩ | ⟨middle, rfl, hmiddle⟩
  · rw [List.length_append]
    exact Nat.le_add_right _ _
  · cases middle with
    | nil => exact Nat.le_of_eq (by rw [List.append_nil])
    | cons d middle =>
      obtain ⟨rfl, -⟩ := List.cons.inj hmiddle
      exact absurd (List.mem_append_right _ List.mem_cons_self) h

theorem cutAt?_append (h : c ∉ s) (rest : List Char) :
    cutAt? c (s ++ c :: rest) = some (s, rest) :=
  cut?_append_of_not_mem h rest

section Within

variable {t : List Char}

theorem prefix_of_prefix_append (hc : c ∉ pattern) (h : pattern <+: s ++ c :: t) :
    pattern <+: s := by
  rcases List.prefix_or_prefix_of_prefix h (List.prefix_append s _) with hs | ⟨tail, hs⟩
  · exact hs
  · cases tail with
    | nil =>
      rw [List.append_nil] at hs
      subst hs
      exact List.prefix_rfl
    | cons d tail =>
      rw [← hs, List.prefix_append_right_inj, List.cons_prefix_cons] at h
      refine absurd ?_ hc
      rw [← hs, h.1]
      exact List.mem_append_right _ List.mem_cons_self

theorem infix_append_cons_iff (hc : c ∉ pattern) :
    pattern <:+: s ++ c :: t ↔ pattern <:+: s ∨ pattern <:+: t := by
  constructor
  · intro h
    induction s with
    | nil =>
      rcases List.infix_cons_iff.1 h with hprefix | hlater
      · exact .inl (prefix_of_prefix_append (s := []) hc hprefix).isInfix
      · exact .inr hlater
    | cons d s ih =>
      rcases List.infix_cons_iff.1 h with hprefix | hlater
      · exact .inl (prefix_of_prefix_append (s := d :: s) hc hprefix).isInfix
      · exact (ih hlater).imp_left List.infix_cons
  · rintro (h | h)
    · exact h.trans (List.prefix_append _ _).isInfix
    · exact h.trans ((List.suffix_cons _ _).trans (List.suffix_append _ _)).isInfix

theorem infix_append_append_iff {middle : List Char} (hpattern : pattern ≠ []) (hne : middle ≠ [])
    (hmiddle : ∀ c ∈ middle, c ∉ pattern) :
    pattern <:+: s ++ (middle ++ t) ↔ pattern <:+: s ∨ pattern <:+: t := by
  induction middle generalizing s with
  | nil => exact absurd rfl hne
  | cons c middle ih =>
    obtain ⟨hc, hmiddle⟩ := List.forall_mem_cons.1 hmiddle
    rw [List.cons_append, infix_append_cons_iff hc]
    rcases eq_or_ne middle [] with rfl | hlater
    · rw [List.nil_append]
    · have hrest : pattern <:+: middle ++ t ↔ pattern <:+: [] ∨ pattern <:+: t :=
        ih (s := []) hlater hmiddle
      rw [hrest, List.infix_nil]
      exact or_congr_right (or_iff_right hpattern)

theorem infix_of_infix_append_left (hne : pattern ≠ []) (hhead : ∀ c ∈ pattern.head?, c ∉ s)
    (h : pattern <:+: s ++ t) : pattern <:+: t := by
  induction s with
  | nil => exact h
  | cons d s ih =>
    obtain ⟨c, pattern, rfl⟩ := List.exists_cons_of_ne_nil hne
    obtain ⟨hd, hs⟩ := not_or.1 (fun hmem => hhead c rfl (List.mem_cons.2 hmem))
    refine ih ?_ ((List.infix_cons_iff.1 h).resolve_left fun hprefix => ?_)
    · rintro _ ⟨⟩
      exact hs
    · exact hd (List.cons_prefix_cons.1 hprefix).1

theorem infix_of_infix_append_right (hne : pattern ≠ []) (hlast : ∀ c ∈ pattern.getLast?, c ∉ t)
    (h : pattern <:+: s ++ t) : pattern <:+: s := by
  rw [← List.reverse_infix, List.reverse_append] at h
  rw [← List.reverse_infix]
  refine infix_of_infix_append_left (by simpa using hne) (fun c hc hmem => ?_) h
  rw [List.head?_reverse] at hc
  exact hlast c hc (List.mem_reverse.1 hmem)

end Within

theorem span_eq_iff {p : Char → Bool} {t rest : List Char} :
    s.span p = (t, rest) ↔
      s = t ++ rest ∧ (∀ c ∈ t, p c = true) ∧ ∀ c ∈ rest.head?, p c = false := by
  rw [List.span_eq_takeWhile_dropWhile, Prod.mk.injEq]
  constructor
  · rintro ⟨rfl, rfl⟩
    refine ⟨List.takeWhile_append_dropWhile.symm, fun c hc => ?_, fun c hc => ?_⟩
    · exact List.all_eq_true.1 List.all_takeWhile c hc
    · have hnot := List.head?_dropWhile_not p s
      rw [Option.mem_def.1 hc] at hnot
      exact hnot
  · rintro ⟨rfl, ht, hrest⟩
    rw [List.takeWhile_append_of_pos ht, List.dropWhile_append_of_pos ht]
    cases rest with
    | nil => simp
    | cons c rest => simp [hrest c rfl]

end StoryScript.Text
