/-! # Cutting texts

A cut takes a text apart at the first place where a pattern stands. Its parts and the
pattern give the text back, and nothing after the cut is longer than before it, so
cutting may be repeated to the end of the text.
-/

namespace StoryScript.Text

def after? : List Char → List Char → Option (List Char)
  | [], s => some s
  | _ :: _, [] => none
  | p :: pattern, c :: s => if p = c then after? pattern s else none

def startsWith (s pattern : List Char) : Bool :=
  (after? pattern s).isSome

/-- The parts before and after the first place where the pattern stands. The empty
pattern stands nowhere. -/
def cut? (pattern : List Char) : List Char → Option (List Char × List Char)
  | [] => none
  | c :: s =>
    match if pattern.isEmpty then none else after? pattern (c :: s) with
    | some rest => some ([], rest)
    | none => (cut? pattern s).map fun (before, rest) => (c :: before, rest)

def contains (s pattern : List Char) : Bool :=
  (cut? pattern s).isSome

theorem after?_eq_some_iff {pattern s rest : List Char} :
    after? pattern s = some rest ↔ s = pattern ++ rest := by
  induction pattern generalizing s with
  | nil => simp [after?]
  | cons p pattern ih =>
    cases s with
    | nil => simp [after?]
    | cons c s =>
      by_cases h : p = c
      · simp [after?, h, ih]
      · simp [after?, h, Ne.symm h]

theorem eq_append_of_cut? {pattern s before rest : List Char}
    (h : cut? pattern s = some (before, rest)) :
    pattern ≠ [] ∧ s = before ++ pattern ++ rest := by
  induction s generalizing before with
  | nil => simp [cut?] at h
  | cons c s ih =>
    simp only [cut?] at h
    split at h
    · rename_i tail ht
      split at ht
      · simp at ht
      · rename_i hne
        obtain ⟨rfl, rfl⟩ : [] = before ∧ tail = rest := by simpa using h
        exact ⟨by simpa using hne, by simpa using after?_eq_some_iff.1 ht⟩
    · obtain ⟨⟨b, r⟩, hb, he⟩ := Option.map_eq_some_iff.1 h
      obtain ⟨rfl, rfl⟩ : c :: b = before ∧ r = rest := by simpa using he
      obtain ⟨hp, hs⟩ := ih hb
      exact ⟨hp, by simp [hs]⟩

theorem length_lt_of_cut? {pattern s before rest : List Char}
    (h : cut? pattern s = some (before, rest)) : rest.length < s.length := by
  obtain ⟨hp, rfl⟩ := eq_append_of_cut? h
  have := List.length_pos_iff.2 hp
  simp only [List.length_append]
  omega

/-- The pieces of the text between the places where the separator stands. -/
def pieces (separator : List Char) (s : List Char) : List (List Char) :=
  match _h : cut? separator s with
  | none => [s]
  | some (before, rest) => before :: pieces separator rest
termination_by s.length
decreasing_by exact length_lt_of_cut? _h

/-- The parts before and after the first occurrence of a character. -/
def cutAt? (c : Char) (s : List Char) : Option (List Char × List Char) :=
  cut? [c] s

end StoryScript.Text
