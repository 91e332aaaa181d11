/-! # Quoted literals

A quoted literal is a quote character, units and the same quote character. A unit is one
character other than that quote and the backslash, or a backslash and one character.
-/

namespace StoryScript.Text.Quoted

inductive Fault where
  /-- The text ends inside the literal. -/
  | unclosed
  /-- The text ends after a backslash. -/
  | danglingEscape
deriving DecidableEq, Repr

def isQuote (c : Char) : Bool :=
  c == '"' || c == '\''

/-- The character that a backslash and this character stand for. -/
def escaped (c : Char) : Char :=
  if c = 'n' then '\n' else if c = 't' then '\t' else c

def withFirst (c : Char) :
    Except Fault (List Char × List Char) → Except Fault (List Char × List Char)
  | .error fault => .error fault
  | .ok (content, rest) => .ok (c :: content, rest)

/-- The content of a literal opened by `quote` and the text after its closing quote. -/
def readBody (quote : Char) : List Char → Except Fault (List Char × List Char)
  | [] => .error .unclosed
  | '\\' :: [] => .error .danglingEscape
  | '\\' :: c :: s => withFirst (escaped c) (readBody quote s)
  | c :: s => if c = quote then .ok ([], s) else withFirst c (readBody quote s)

/-- The content of the literal at the start of the text and the text after it. -/
def read? : List Char → Option (List Char × List Char)
  | [] => none
  | c :: s => if isQuote c then (readBody c s).toOption else none

/-- The text in place of a character inside a literal: the quote and the backslash follow
a backslash. -/
def escape (quote : Char) (s : List Char) : List Char :=
  s.flatMap fun c => if c = quote || c = '\\' then ['\\', c] else [c]

theorem withFirst_eq_ok_iff {c : Char} {body : Except Fault (List Char × List Char)}
    {content rest : List Char} :
    withFirst c body = .ok (content, rest) ↔
      ∃ content', body = .ok (content', rest) ∧ content = c :: content' := by
  cases body with
  | error fault => simp [withFirst]
  | ok p =>
    obtain ⟨content', rest'⟩ := p
    simp only [withFirst, Except.ok.injEq, Prod.mk.injEq]
    constructor
    · rintro ⟨rfl, rfl⟩
      exact ⟨content', ⟨rfl, rfl⟩, rfl⟩
    · rintro ⟨_, ⟨rfl, rfl⟩, rfl⟩
      exact ⟨rfl, rfl⟩

end StoryScript.Text.Quoted
