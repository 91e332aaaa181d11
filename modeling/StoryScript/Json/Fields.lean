import StoryScript.Json.Basic
import StoryScript.Number.Rounding

/-! # Fields of records

A record stands in a document as an object, or as an array of its fields in their order. Of
an object's members those with other keys are ignored, and a field may not be given twice.
Fields left out at the end of an array are absent, and it may not hold more.

A record is read in passing, or kept as a whole until it is known what it is. A kept record is
readable in all its parts, those that are ignored included, and its tags have more forms.
-/

namespace StoryScript

def Number.ofInt (n : Int) : Number :=
  .withSign (n < 0) (Magnitude.ofNat? n.natAbs)

namespace Json

/-- How a document is held while it is read. -/
inductive Access where
  | passing
  | kept
deriving DecidableEq, Repr

def asText? : Json → Option String
  | text s => some s
  | _ => none

def asNumber? : Json → Option Number
  | integer n => some (.ofInt n)
  | number x => some x
  | _ => none

def asList? (readItem : Json → Option α) : Json → Option (List α)
  | array items => items.mapM readItem
  | _ => none

/-- The member with a key, absent if there is none. Two members with that key are refused. -/
def unique? (key : String) (members : List (String × Json)) : Option (Option Json) :=
  match members.filter (·.1 == key) with
  | [] => some none
  | [(_, value)] => some (some value)
  | _ => none

def fields? (keys : List String) : Json → Option (List (Option Json))
  | object members => keys.mapM (unique? · members)
  | array items =>
    if items.length ≤ keys.length then
      some (items.map some ++ List.replicate (keys.length - items.length) none)
    else none
  | _ => none

def required? (read : Json → Option α) (field : Option Json) : Option α :=
  field.bind read

def optional? (read : Json → Option α) : Option Json → Option (Option α)
  | none => some none
  | some null => some none
  | some value => (read value).map some

def listOrEmpty? (readItem : Json → Option α) : Option Json → Option (List α)
  | none => some []
  | some value => value.asList? readItem

/-- A tagged record taken apart into the tag and the record of the other fields. The tag is
a member named `type`, or the first item of an array. -/
def tagged? : Json → Option (Json × Json)
  | object members =>
    match unique? "type" members with
    | some (some tag) => some (tag, object (members.filter (·.1 != "type")))
    | _ => none
  | array (tag :: items) => some (tag, array items)
  | _ => none

/-- The name that a tag gives. A kept tag may be a number, the place of the name among all
names. -/
def tagName? (access : Access) (nameAt? : Nat → Option String) : Json → Option String
  | text name => some name
  | integer n => if access = .kept ∧ 0 ≤ n then nameAt? n.toNat else none
  | _ => none

/-- The name that a tag gives which may be written as the only key of an object. Its value is
null, or an empty object if the tag is kept. -/
def keyedTagName? (access : Access) : Json → Option String
  | text name => some name
  | object [(name, null)] => some name
  | object [(name, object [])] => if access = .kept then some name else none
  | _ => none

def isBare : Json → Bool
  | object _ => true
  | array [] => true
  | _ => false

mutual

def depth : Json → Nat
  | array items => depthOfItems items + 1
  | object members => depthOfMembers members + 1
  | _ => 0

def depthOfItems : List Json → Nat
  | [] => 0
  | item :: items => max item.depth (depthOfItems items)

def depthOfMembers : List (String × Json) → Nat
  | [] => 0
  | (_, value) :: members => max value.depth (depthOfMembers members)

end

end Json

end StoryScript
