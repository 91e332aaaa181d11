import Mathlib.Data.List.DropRight
import Mathlib.Tactic.Common
import StoryScript.Text.Blank

/-! # Trimming

A text that neither begins nor ends with a blank is trimmed. What stands at the ends decides.
-/

namespace StoryScript.Text

variable {p : Char → Bool} {c : Char} {s t : List Char}

theorem dropEndWhile_eq_rdropWhile : dropEndWhile p s = s.rdropWhile p := rfl

theorem dropEndWhile_cons_of_neg (h : p c = false) :
    dropEndWhile p (c :: s) = c :: dropEndWhile p s := by
  rw [dropEndWhile, List.reverse_cons, List.dropWhile_append, dropEndWhile]
  split
  · rename_i hnil
    rw [List.isEmpty_iff.1 hnil, List.dropWhile_cons, h]
    rfl
  · rw [List.reverse_append, List.reverse_singleton, List.singleton_append]

theorem dropEndWhile_eq_self_iff : dropEndWhile p s = s ↔ ∀ c ∈ s.getLast?, p c = false := by
  rw [dropEndWhile_eq_rdropWhile, List.rdropWhile_eq_self_iff]
  constructor
  · intro h c hc
    obtain ⟨hne, rfl⟩ := List.mem_getLast?_eq_getLast hc
    exact Bool.eq_false_iff.2 (h hne)
  · exact fun h hne => Bool.eq_false_iff.1 (h _ (List.getLast_mem_getLast? hne))

theorem trim_cons_of_blank (h : isBlank c = true) : trim (c :: s) = trim s := by
  rw [trim, trimStart, List.dropWhile_cons, h, if_pos rfl, trim, trimStart]

theorem trim_cons_of_not_blank (h : isBlank c = false) : trim (c :: s) = c :: trimEnd s := by
  rw [trim, trimStart, List.dropWhile_cons, h, if_neg Bool.false_ne_true, trimEnd,
    dropEndWhile_cons_of_neg h, trimEnd]

theorem trim_append_of_blank {blanks : List Char} (h : ∀ c ∈ blanks, isBlank c = true) :
    trim (blanks ++ s) = trim s := by
  rw [trim, trimStart, List.dropWhile_append_of_pos h, trim, trimStart]

theorem trim_concat_of_blank (h : isBlank c = true) : trim (s ++ [c]) = trim s := by
  induction s with
  | nil => rw [List.nil_append, trim_cons_of_blank h]
  | cons first s ih =>
    rw [List.cons_append]
    cases hfirst : isBlank first with
    | true => rw [trim_cons_of_blank hfirst, ih, trim_cons_of_blank hfirst]
    | false =>
      rw [trim_cons_of_not_blank hfirst, trim_cons_of_not_blank hfirst, trimEnd,
        dropEndWhile_eq_rdropWhile, List.rdropWhile_concat_pos _ _ _ h]
      rfl

theorem trim_append_right_of_blank {blanks : List Char} (h : ∀ c ∈ blanks, isBlank c = true) :
    trim (s ++ blanks) = trim s := by
  induction blanks using List.reverseRecOn with
  | nil => rw [List.append_nil]
  | append_singleton blanks c ih =>
    obtain ⟨hblanks, hlast⟩ := List.forall_mem_append.1 h
    rw [← List.append_assoc, trim_concat_of_blank (hlast c List.mem_cons_self), ih hblanks]

theorem infix_trim (s : List Char) : trim s <:+: s :=
  (List.rdropWhile_prefix isBlank _).isInfix.trans (List.dropWhile_suffix isBlank).isInfix

theorem trim_subset (s : List Char) : trim s ⊆ s :=
  (infix_trim s).subset

theorem infix_dropWhile_iff (hne : t ≠ []) (h : ∀ c ∈ t.head?, p c = false) :
    t <:+: s.dropWhile p ↔ t <:+: s := by
  induction s with
  | nil => rfl
  | cons c s ih =>
    rw [List.dropWhile_cons]
    split
    · rename_i hc
      rw [ih, List.infix_cons_iff]
      constructor
      · exact .inr
      · rintro (⟨rest, hprefix⟩ | hlater)
        · cases t with
          | nil => exact absurd rfl hne
          | cons first t =>
            obtain ⟨rfl, -⟩ := List.cons.inj hprefix
            rw [h first rfl] at hc
            cases hc
        · exact hlater
    · rfl

/-- Whether no blank stands at the end of a text. -/
def EndsPlain (s : List Char) : Prop :=
  ∀ c ∈ s.getLast?, isBlank c = false

theorem endsPlain_nil : EndsPlain [] := nofun

theorem endsPlain_append (hne : t ≠ []) (h : EndsPlain t) : EndsPlain (s ++ t) := by
  intro c hc
  rw [List.getLast?_append_of_ne_nil _ hne] at hc
  exact h c hc

theorem endsPlain_concat (h : isBlank c = false) : EndsPlain (s ++ [c]) := by
  refine endsPlain_append (List.cons_ne_nil _ _) ?_
  rintro _ ⟨⟩
  exact h

theorem trimStart_append (hne : t ≠ []) (h : ∀ c ∈ t.head?, isBlank c = false) :
    trimStart (s ++ t) = trimStart s ++ t := by
  obtain ⟨c, t, rfl⟩ := List.exists_cons_of_ne_nil hne
  rw [trimStart, List.dropWhile_append, trimStart]
  split
  · rename_i hnil
    rw [List.isEmpty_iff.1 hnil, List.dropWhile_cons, h c rfl, if_neg Bool.false_ne_true]
    rfl
  · rfl

theorem trimEnd_append (hne : s ≠ []) (h : EndsPlain s) :
    trimEnd (s ++ t) = s ++ trimEnd t := by
  have hreverse : trimStart (t.reverse ++ s.reverse) = trimStart t.reverse ++ s.reverse := by
    apply trimStart_append
    · simpa using hne
    · rwa [List.head?_reverse]
  rw [trimStart, trimStart] at hreverse
  rw [trimEnd, dropEndWhile, List.reverse_append, hreverse, List.reverse_append,
    List.reverse_reverse]
  rfl

@[simp] theorem trim_trimStart (s : List Char) : trim (trimStart s) = trim s :=
  congrArg trimEnd (List.dropWhile_idempotent isBlank s)

@[simp] theorem trim_trimEnd (s : List Char) : trim (trimEnd s) = trim s := by
  induction s using List.reverseRecOn with
  | nil => rfl
  | append_singleton s c ih =>
    cases hc : isBlank c with
    | true =>
      have hdrop : trimEnd (s ++ [c]) = trimEnd s := List.rdropWhile_concat_pos _ _ _ hc
      rw [hdrop, ih, trim_concat_of_blank hc]
    | false => rw [trimEnd, dropEndWhile_eq_self_iff.2 (endsPlain_concat hc)]

@[simp] theorem trim_trim (s : List Char) : trim (trim s) = trim s :=
  (trim_trimEnd (trimStart s)).trans (trim_trimStart s)

/-- A text without blanks at its ends stands in a text exactly if it stands in the trimmed one. -/
theorem infix_trim_iff (hne : t ≠ []) (hhead : ∀ c ∈ t.head?, isBlank c = false)
    (hlast : EndsPlain t) : t <:+: trim s ↔ t <:+: s := by
  have hreverse : ∀ c ∈ t.reverse.head?, isBlank c = false := by
    rwa [List.head?_reverse]
  rw [trim, trimEnd, dropEndWhile, ← List.reverse_infix, List.reverse_reverse,
    infix_dropWhile_iff (by simpa using hne) hreverse, List.reverse_infix, trimStart,
    infix_dropWhile_iff hne hhead]

theorem mem_trim_of_not_blank (hc : c ∈ s) (h : isBlank c = false) : c ∈ trim s := by
  obtain ⟨before, rest, rfl⟩ := List.append_of_mem hc
  have hwithin : [c] <:+: before ++ c :: rest := ⟨before, rest, by simp⟩
  have hhead : ∀ first ∈ [c].head?, isBlank first = false := by
    rintro _ ⟨⟩
    exact h
  have hlast : EndsPlain [c] := by
    rintro _ ⟨⟩
    exact h
  exact ((infix_trim_iff (List.cons_ne_nil _ _) hhead hlast).2 hwithin).subset List.mem_cons_self

theorem trim_eq_self_iff :
    trim s = s ↔ (∀ c ∈ s.head?, isBlank c = false) ∧ EndsPlain s := by
  cases s with
  | nil => exact ⟨fun _ => ⟨nofun, nofun⟩, fun _ => rfl⟩
  | cons c s =>
    cases hc : isBlank c with
    | true =>
      constructor
      · intro h
        have hlength := (infix_trim s).length_le
        rw [← trim_cons_of_blank hc, h, List.length_cons] at hlength
        exact absurd hlength (Nat.not_succ_le_self _)
      · intro h
        rw [h.1 c rfl] at hc
        cases hc
    | false =>
      rw [trim, trimStart, List.dropWhile_cons, hc, if_neg Bool.false_ne_true, trimEnd,
        dropEndWhile_eq_self_iff, EndsPlain]
      refine ⟨fun h => ⟨?_, h⟩, fun h => h.2⟩
      rintro _ ⟨⟩
      exact hc

end StoryScript.Text
