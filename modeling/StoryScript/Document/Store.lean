import StoryScript.Document.Value
import StoryScript.Store

/-! # Stores in documents

A table is an object with a member for each entry. A character is an object as well: beside
the name and the colour, every other member is a further setting and has to be a text.
-/

namespace StoryScript

def Table.toJson (encode : α → Json) (table : Table α) : Json :=
  .object (table.entries.map fun entry => (entry.1, encode entry.2))

/-- The table whose entries are the members given; of two with the same key the later one
counts. -/
def Table.ofMembers? (read : Json → Option α) (members : List (String × Json)) :
    Option (Table α) :=
  (members.mapM fun member => (read member.2).map fun value => (member.1, value)).map ofList

def Table.ofJson? (read : Json → Option α) : Json → Option (Table α)
  | .object members => ofMembers? read members
  | _ => none

namespace Character

def members (character : Character) : List (String × Json) :=
  [("name", .text character.name), ("color", .text character.color)] ++
    character.extra.entries.map fun entry => (entry.1, .text entry.2)

def toJson (character : Character) : Json :=
  .object character.members

def ofMembers? (members : List (String × Json)) : Option Character := do
  let name ← Json.required? Json.asText? (← Json.unique? "name" members)
  let color ← Json.required? Json.asText? (← Json.unique? "color" members)
  let extra ← Table.ofMembers? Json.asText?
    (members.filter fun member => member.1 != "name" && member.1 != "color")
  return ⟨name, color, extra⟩

def ofJson? : Json → Option Character
  | .object members => ofMembers? members
  | _ => none

def ofDocument? (text : String) : Option Character :=
  (Json.read? text.toList).bind ofJson?

end Character

namespace Store

def toJson (store : Store) : Json :=
  .object [("variables", store.values.toJson Value.toJson),
    ("characters", store.characters.toJson Character.toJson)]

def ofJson? (document : Json) : Option Store := do
  match ← document.fields? ["variables", "characters"] with
  | [values, characters] =>
    return ⟨← Json.required? (Table.ofJson? Value.ofJson?) values,
      ← Json.required? (Table.ofJson? Character.ofJson?) characters⟩
  | _ => none

/-- The store that the text of a document holds. It is read in passing. -/
def ofDocument? (text : String) : Option Store :=
  (Json.parse? text.toList).bind ofJson?

end Store

end StoryScript
