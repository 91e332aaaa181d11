import Mathlib.Tactic.Common
import StoryScript.Json.Reader
import StoryScript.Json.Writer
import StoryScript.Proofs.Json.Number

/-! # Items of arrays and members of objects

The items of an array and the members of an object are written in the same way: with commas
between them, set apart by the layout, and a closing character after them. They are read back if
each of them is, whatever follows it.
-/

namespace StoryScript.Json

open Numeral

variable {α β : Type} {style : Style} {level fuel : Nat} {rest : List Char} {close : Char}
  {entry : β → List Char → List Char} {read : List Char → Option (α × List Char)} {value : β → α}
  {first : β} {entries : List β}

def writeEntries (style : Style) (level : Nat) (close : Char) (entry : β → List Char → List Char)
    (rest : List Char) : List β → List Char
  | [] => style.newline level ++ close :: rest
  | e :: entries =>
    ',' :: (style.newline (level + 1) ++ entry e (writeEntries style level close entry rest entries))

def IsCloser (close : Char) : Prop :=
  close = ']' ∨ close = '\x7d'

/-- A text that begins neither with a blank nor with a closing character. -/
def Starts (close : Char) (s : List Char) : Prop :=
  ∃ c t, s = c :: t ∧ c ≠ close ∧ skipBlanks s = s

theorem Starts.skipBlanks {s : List Char} (h : Starts close s) : skipBlanks s = s := by
  obtain ⟨-, -, -, -, hskip⟩ := h
  exact hskip

theorem skipBlanks_newline (style : Style) (level : Nat) (s : List Char) :
    skipBlanks (style.newline level ++ s) = skipBlanks s := by
  refine List.dropWhile_append_of_pos fun c hc => ?_
  cases style with
  | compact => cases hc
  | indented =>
    rcases List.mem_cons.1 hc with rfl | hc
    · rfl
    · rw [List.eq_of_mem_replicate hc]
      rfl

theorem skipBlanks_closer (hclose : IsCloser close) :
    skipBlanks (close :: rest) = close :: rest := by
  rcases hclose with rfl | rfl <;> rfl

theorem readItemsWithin_last {turns : Nat} {s : List Char} {a : α} (hclose : IsCloser close)
    (h : read (skipBlanks s) = some (a, style.newline level ++ close :: rest)) :
    readItemsWithin read close (turns + 1) s = some ([a], rest) := by
  rw [readItemsWithin, h]
  simp only [skipBlanks_newline, skipBlanks_closer hclose, ite_true]

theorem readItemsWithin_comma {turns : Nat} {s later : List Char} {a : α}
    (hclose : IsCloser close) (h : read (skipBlanks s) = some (a, ',' :: later)) :
    readItemsWithin read close (turns + 1) s =
      (readItemsWithin read close turns later).map fun (items, rest) => (a :: items, rest) := by
  have hcomma : ',' ≠ close := by
    rcases hclose with rfl | rfl <;> decide
  have hskip : skipBlanks (',' :: later) = ',' :: later := rfl
  rw [readItemsWithin, h]
  simp only [hskip, hcomma, ite_false, ite_true]

theorem exists_mem_of_readItemsWithin {turns : Nat} {s : List Char} {items : List α}
    (h : readItemsWithin read close turns s = some (items, rest)) :
    ∃ a ∈ items, ∃ later, read (skipBlanks s) = some (a, later) := by
  cases turns with
  | zero => cases h
  | succ turns =>
    rw [readItemsWithin] at h
    split at h
    · cases h
    · rename_i a later hread
      split at h
      · cases h
      · split at h
        · cases h
          exact ⟨a, List.mem_singleton_self a, later, hread⟩
        · split at h
          · obtain ⟨found, hfound, heq⟩ := Option.map_eq_some_iff.1 h
            cases heq
            exact ⟨a, List.mem_cons_self, later, hread⟩
          · cases h

/-- How entries are written: they begin with a character of their own, and they are not empty. -/
structure IsEntry (close : Char) (entry : β → List Char → List Char) : Prop where
  closer : IsCloser close
  starts : ∀ e rest, Starts close (entry e rest)
  longer : ∀ e rest, rest.length < (entry e rest).length

theorem not_continues_writeEntries (hclose : IsCloser close) :
    ¬ Continues (writeEntries style level close entry rest entries) := by
  rintro ⟨c, hc, h⟩
  cases entries with
  | cons e entries =>
    cases hc
    revert h
    decide
  | nil =>
    cases style with
    | indented =>
      cases hc
      revert h
      decide
    | compact =>
      cases hc
      rcases hclose with rfl | rfl <;> revert h <;> decide

theorem IsEntry.skipBlanks_newline (hentry : IsEntry close entry) (e : β) (rest : List Char) :
    skipBlanks (style.newline level ++ entry e rest) = entry e rest := by
  rw [Json.skipBlanks_newline, (hentry.starts e rest).skipBlanks]

theorem IsEntry.readItems? (hentry : IsEntry close entry) (e : β) (rest : List Char) :
    readItems? fuel read close (style.newline level ++ entry e rest) =
      readItemsWithin read close fuel (entry e rest) := by
  obtain ⟨c, t, hs, hc, hskip⟩ := hentry.starts e rest
  rw [Json.readItems?, Json.skipBlanks_newline, hskip, hs]
  exact if_neg hc

theorem IsEntry.length_lt (hentry : IsEntry close entry) (style : Style) (level : Nat)
    (rest : List Char) (e next : β) (entries : List β) :
    (entry next (writeEntries style level close entry rest entries)).length + 1 <
      (entry e (writeEntries style level close entry rest (next :: entries))).length := by
  have h := hentry.longer e (writeEntries style level close entry rest (next :: entries))
  have hlength : (writeEntries style level close entry rest (next :: entries)).length =
      (style.newline (level + 1)).length +
        (entry next (writeEntries style level close entry rest entries)).length + 1 := by
    rw [writeEntries, List.length_cons, List.length_append]
  omega

theorem readItemsWithin_writeEntries (hentry : IsEntry close entry)
    (hread : ∀ e ∈ first :: entries, ∀ rest, ¬ Continues rest → (entry e rest).length ≤ fuel →
      read (entry e rest) = some (value e, rest))
    {turns : Nat} {s : List Char}
    (hs : skipBlanks s = entry first (writeEntries style level close entry rest entries))
    (hfuel : (skipBlanks s).length ≤ fuel) (hturns : (skipBlanks s).length ≤ turns) :
    readItemsWithin read close turns s = some (value first :: entries.map value, rest) := by
  induction entries generalizing first turns s with
  | nil =>
    have hlonger := hentry.longer first (writeEntries style level close entry rest [])
    have hfirst := hread first List.mem_cons_self _ (not_continues_writeEntries hentry.closer)
      (hs ▸ hfuel)
    rw [← hs] at hfirst hlonger
    obtain ⟨turns, rfl⟩ := Nat.exists_eq_add_one_of_ne_zero (show turns ≠ 0 by omega)
    exact readItemsWithin_last hentry.closer hfirst
  | cons next entries ih =>
    have hshorter := hentry.length_lt style level rest first next entries
    have hfirst := hread first List.mem_cons_self _ (not_continues_writeEntries hentry.closer)
      (hs ▸ hfuel)
    rw [← hs] at hfirst hshorter
    obtain ⟨turns, rfl⟩ := Nat.exists_eq_add_one_of_ne_zero (show turns ≠ 0 by omega)
    rw [readItemsWithin_comma hentry.closer hfirst,
      ih (fun e he => hread e (List.mem_cons_of_mem _ he)) (hentry.skipBlanks_newline next _)
        (by rw [hentry.skipBlanks_newline]; omega) (by rw [hentry.skipBlanks_newline]; omega)]
    rfl

/-- If an entry can only be read with a property, some item that is read has it. -/
theorem exists_mem_of_readItemsWithin_writeEntries (hentry : IsEntry close entry)
    {deep : β → Prop} {p : α → Prop}
    (hread : ∀ e ∈ first :: entries, ¬ deep e → ∀ rest, ¬ Continues rest →
      (entry e rest).length ≤ fuel → read (entry e rest) = some (value e, rest))
    (hdeep : ∀ e ∈ first :: entries, deep e → ∀ rest a later,
      (entry e rest).length ≤ fuel → read (entry e rest) = some (a, later) → p a)
    (hsome : ∃ e ∈ first :: entries, deep e) {turns : Nat} {s later : List Char} {items : List α}
    (hs : skipBlanks s = entry first (writeEntries style level close entry rest entries))
    (hfuel : (skipBlanks s).length ≤ fuel)
    (h : readItemsWithin read close turns s = some (items, later)) : ∃ a ∈ items, p a := by
  induction entries generalizing first turns s items with
  | nil =>
    obtain ⟨e, he, hp⟩ := hsome
    obtain rfl := List.mem_singleton.1 he
    obtain ⟨a, ha, after, hfirst⟩ := exists_mem_of_readItemsWithin h
    rw [hs] at hfirst hfuel
    exact ⟨a, ha, hdeep e he hp _ _ _ hfuel hfirst⟩
  | cons next entries ih =>
    by_cases hp : deep first
    · obtain ⟨a, ha, after, hfirst⟩ := exists_mem_of_readItemsWithin h
      rw [hs] at hfirst hfuel
      exact ⟨a, ha, hdeep first List.mem_cons_self hp _ _ _ hfuel hfirst⟩
    · have hfirst := hread first List.mem_cons_self hp _
        (not_continues_writeEntries hentry.closer) (hs ▸ hfuel)
      have hshorter := hentry.length_lt style level rest first next entries
      rw [← hs] at hfirst hshorter
      obtain _ | turns := turns
      · cases h
      rw [readItemsWithin_comma hentry.closer hfirst] at h
      obtain ⟨⟨others, after⟩, hothers, heq⟩ := Option.map_eq_some_iff.1 h
      cases heq
      have hlater : ∃ e ∈ next :: entries, deep e := by
        obtain ⟨e, he, hdeepest⟩ := hsome
        rcases List.mem_cons.1 he with rfl | he
        · exact absurd hdeepest hp
        · exact ⟨e, he, hdeepest⟩
      obtain ⟨a, ha, hpa⟩ := ih (fun e he => hread e (List.mem_cons_of_mem _ he))
        (fun e he => hdeep e (List.mem_cons_of_mem _ he)) hlater (hentry.skipBlanks_newline next _)
        (by rw [hentry.skipBlanks_newline]; omega) hothers
      exact ⟨a, List.mem_cons_of_mem _ ha, hpa⟩

theorem readItems?_writeEntries (value : β → α) (hentry : IsEntry close entry)
    (hread : ∀ e ∈ first :: entries, ∀ rest, ¬ Continues rest → (entry e rest).length ≤ fuel →
      read (entry e rest) = some (value e, rest))
    (hfuel : (entry first (writeEntries style level close entry rest entries)).length ≤ fuel) :
    readItems? fuel read close (style.newline (level + 1) ++
      entry first (writeEntries style level close entry rest entries)) =
        some ((first :: entries).map value, rest) := by
  have hskip := (hentry.starts first (writeEntries style level close entry rest entries)).skipBlanks
  rw [hentry.readItems?]
  exact readItemsWithin_writeEntries hentry hread hskip (hskip.symm ▸ hfuel) (hskip.symm ▸ hfuel)

theorem exists_mem_of_readItems?_writeEntries (value : β → α) (deep : β → Prop) (p : α → Prop)
    (hentry : IsEntry close entry)
    (hread : ∀ e ∈ first :: entries, ¬ deep e → ∀ rest, ¬ Continues rest →
      (entry e rest).length ≤ fuel → read (entry e rest) = some (value e, rest))
    (hdeep : ∀ e ∈ first :: entries, deep e → ∀ rest a later,
      (entry e rest).length ≤ fuel → read (entry e rest) = some (a, later) → p a)
    (hsome : ∃ e ∈ first :: entries, deep e)
    (hfuel : (entry first (writeEntries style level close entry rest entries)).length ≤ fuel)
    {later : List Char} {items : List α}
    (h : readItems? fuel read close (style.newline (level + 1) ++
      entry first (writeEntries style level close entry rest entries)) = some (items, later)) :
    ∃ a ∈ items, p a := by
  have hskip := (hentry.starts first (writeEntries style level close entry rest entries)).skipBlanks
  rw [hentry.readItems?] at h
  exact exists_mem_of_readItemsWithin_writeEntries hentry hread hdeep hsome hskip
    (hskip.symm ▸ hfuel) h

end StoryScript.Json
