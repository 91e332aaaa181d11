import StoryScript.Number.Basic

/-! # Documents

A document is a tree of JSON values. Members of an object keep their order, and a key may
stand more than once; the reader of a document decides what that means. A part of a text may
be well formed and yet denote nothing, and such a part does no harm where nobody looks at it,
so it has a place in the tree.
-/

namespace StoryScript

/-- A JSON value. Integers are those written without a fraction and an exponent that fit
into 64 bits. -/
inductive Json where
  | null
  | bool (value : Bool)
  | integer (value : Int)
  | number (value : Number)
  | text (value : String)
  | array (items : List Json)
  | object (members : List (String × Json))
  /-- A number beyond the range, a text or an object key with half of a surrogate pair, or an
  array or object that is nested too deeply. -/
  | unreadable
deriving Repr, Inhabited

namespace Json

def texts (values : List String) : Json :=
  .array (values.map .text)

def member? (key : String) (encode : α → Json) (value : Option α) : List (String × Json) :=
  match value with
  | some a => [(key, encode a)]
  | none => []

mutual

def isReadable : Json → Bool
  | array items => areReadable items
  | object members => haveReadable members
  | unreadable => false
  | _ => true

def areReadable : List Json → Bool
  | [] => true
  | item :: items => item.isReadable && areReadable items

def haveReadable : List (String × Json) → Bool
  | [] => true
  | (_, value) :: members => value.isReadable && haveReadable members

end

end Json

end StoryScript
