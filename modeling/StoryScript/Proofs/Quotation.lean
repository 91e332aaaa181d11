import Mathlib.Tactic.Common
import StoryScript.Proofs.Text.Trim
import StoryScript.Script.Statement

/-! # Statements that begin with a quote

A line that begins with a quote is a prompt or a line of speech. All other forms begin with a
letter or a dollar sign.
-/

namespace StoryScript.Script.Statement

open Text

variable {quote : Char} {s : List Char}

theorem isBlank_of_isQuote (h : Quoted.isQuote quote = true) : isBlank quote = false := by
  simp only [Quoted.isQuote, Bool.or_eq_true, beq_iff_eq] at h
  rcases h with rfl | rfl <;> rfl

theorem beforeColon?_cons {c : Char} {word : List Char} (hblank : isBlank c = false)
    (hne : word ≠ []) (hword : word.head? ≠ some c) : beforeColon? (c :: s) ≠ some word := by
  unfold beforeColon?
  split
  · cases s with
    | nil =>
      rintro ⟨⟩
      exact hne rfl
    | cons next s =>
      rw [List.dropLast_cons_cons, trim_cons_of_not_blank hblank]
      rintro ⟨⟩
      exact hword rfl
  · exact nofun

theorem menu?_cons {c : Char} (hblank : isBlank c = false) (h : 'm' ≠ c) :
    menu? (c :: s) = none :=
  if_neg (beforeColon?_cons hblank (List.cons_ne_nil _ _) fun heq => h (Option.some.inj heq))

theorem elseBranch?_cons {c : Char} (hblank : isBlank c = false) (h : 'e' ≠ c) :
    elseBranch? (c :: s) = none :=
  if_neg (beforeColon?_cons hblank (List.cons_ne_nil _ _) fun heq => h (Option.some.inj heq))

def openForms : List (List Char → Option Reading) :=
  [label?, scene?, define?, assignment?, prompt?, ifBranch?, elifBranch?, jump?, pause?,
    playMusic?, stopMusic?, showImage?, hideImage?, finish?, dialogue?]

theorem read_cons {c : Char} (hblank : isBlank c = false) (hmenu : 'm' ≠ c) (helse : 'e' ≠ c) :
    read (c :: s) = (openForms.findSome? (· (c :: s))).getD (.ok .ignored) := by
  unfold read forms openForms
  simp only [List.findSome?_cons, menu?_cons hblank hmenu, elseBranch?_cons hblank helse]

theorem read_of_quote (h : Quoted.isQuote quote = true) :
    read (quote :: s) =
      ((prompt? (quote :: s)).or (dialogue? (quote :: s))).getD (.ok .ignored) := by
  have hletter : ∀ letter, Quoted.isQuote letter = false → letter ≠ quote := by
    rintro letter hletter rfl
    rw [h] at hletter
    cases hletter
  rw [read_cons (isBlank_of_isQuote h) (hletter 'm' rfl) (hletter 'e' rfl), openForms]
  simp only [List.findSome?_cons, List.findSome?_nil]
  simp only [Quoted.isQuote, Bool.or_eq_true, beq_iff_eq] at h
  -- The other forms fail at the first character.
  rcases h with rfl | rfl <;> cases prompt? _ <;> cases dialogue? _ <;> rfl

theorem read_prompt {text content rest : List Char} (h : Quoted.read? text = some (content, rest))
    (hrest : trim rest = [':']) : read text = .ok (.prompt (.ofList content)) := by
  cases text with
  | nil => cases h
  | cons quote s =>
    have hprompt : prompt? (quote :: s) = some (.ok (.prompt (.ofList content))) := by
      rw [prompt?, h]
      exact if_pos hrest
    have hquote : Quoted.isQuote quote = true := by
      by_contra hn
      simp [Quoted.read?, hn] at h
    rw [read_of_quote hquote, hprompt]
    rfl

end StoryScript.Script.Statement
