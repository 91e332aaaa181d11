import StoryScript.Text.Blank
import StoryScript.Text.Quoted

/-! # Words and clauses

Words are separated by blanks. A quote inside or before a word opens a stretch in which
blanks belong to the word; the stretch runs to the next quote of its kind or to the end of
the text. A clause is opened by a keyword and holds the words up to the next keyword.
-/

namespace StoryScript.Text

/-- A first word and later words as one list, an empty first word left out. -/
def consWord : List Char → List (List Char) → List (List Char)
  | [], rest => rest
  | word, rest => word :: rest

/-- The end of the word that the text continues, and the words after it. The first argument
is the quote that is open. -/
def splitWords : Option Char → List Char → List Char × List (List Char)
  | _, [] => ([], [])
  | some quote, c :: s =>
    let (word, rest) := splitWords (if c = quote then none else some quote) s
    (c :: word, rest)
  | none, c :: s =>
    if Quoted.isQuote c then
      let (word, rest) := splitWords (some c) s
      (c :: word, rest)
    else if isBlank c then
      let (word, rest) := splitWords none s
      ([], consWord word rest)
    else
      let (word, rest) := splitWords none s
      (c :: word, rest)

def words (s : List Char) : List (List Char) :=
  let (word, rest) := splitWords none s
  consWord word rest

def unwords (ws : List (List Char)) : List Char :=
  [' '].intercalate ws

/-- A text taken apart at keywords: the words before the first keyword, then each keyword
with the words up to the next one. -/
structure Clauses where
  subject : List (List Char)
  stretches : List (List Char × List (List Char))

namespace Clauses

def ofWords (keywords : List (List Char)) : List (List Char) → Clauses
  | [] => ⟨[], []⟩
  | word :: ws =>
    let later := ofWords keywords ws
    if keywords.contains word then ⟨[], (word, later.subject) :: later.stretches⟩
    else ⟨word :: later.subject, later.stretches⟩

def read (keywords : List (List Char)) (s : List Char) : Clauses :=
  ofWords keywords (words s)

/-- The words of all stretches that a keyword opens, unless it opens none. -/
def clause? (clauses : Clauses) (keyword : List Char) : Option (List (List Char)) :=
  match clauses.stretches.filter (·.1 == keyword) with
  | [] => none
  | found => some (found.flatMap (·.2))

end Clauses

end StoryScript.Text
