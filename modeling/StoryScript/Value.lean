import StoryScript.Number.Layout
import StoryScript.Number.Numeral
import StoryScript.Text.Blank
import StoryScript.Text.Lowercase
import StoryScript.Text.Quoted

/-! # Values

The variables of a story hold truth values, numbers and texts. A value is written in a
script as a literal; what is neither quoted nor a truth value nor a number stands for its
own text.
-/

namespace StoryScript

inductive Value where
  | bool (value : Bool)
  | number (value : Number)
  | text (value : String)
deriving DecidableEq, Repr, Inhabited

namespace Value

def unquoted? : List Char → Option (List Char)
  | [] => none
  | quote :: rest =>
    if Text.Quoted.isQuote quote && rest.getLast? == some quote then some rest.dropLast else none

def truth? (s : List Char) : Option Bool :=
  if Text.equalFoldingLatin s ['t', 'r', 'u', 'e'] then some true
  else if Text.equalFoldingLatin s ['f', 'a', 'l', 's', 'e'] then some false
  else none

def ofTrimmed (s : List Char) : Value :=
  match unquoted? s with
  | some content => .text (.ofList content)
  | none =>
    match truth? s with
    | some b => .bool b
    | none =>
      match Number.ofText? s with
      | some n => .number n
      | none => .text (.ofList s)

/-- The value that the right-hand side of an assignment denotes. -/
def ofLiteral (s : String) : Value :=
  ofTrimmed (Text.trim s.toList)

def display : Value → String
  | .bool true => "True"
  | .bool false => "False"
  | .number n => .ofList n.text
  | .text s => s

/-- Whether a value fails a condition that consists of its variable. Only the truth value
false does. -/
def isFalse (value : Value) : Bool :=
  value == .bool false

end Value

end StoryScript
