import StoryScript.Json.Fields
import StoryScript.Json.Reader
import StoryScript.Value

/-! # Values in documents

A value stands in a document as itself: a truth value, a number or a text.
-/

namespace StoryScript.Value

def toJson : Value → Json
  | .bool b => .bool b
  | .number n => .number n
  | .text s => .text s

def ofJson? : Json → Option Value
  | .bool b => some (.bool b)
  | .text s => some (.text s)
  | document => document.asNumber?.map .number

def ofDocument? (text : String) : Option Value :=
  (Json.read? text.toList).bind ofJson?

end StoryScript.Value
