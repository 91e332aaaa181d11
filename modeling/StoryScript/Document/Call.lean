import StoryScript.Call.Basic
import StoryScript.Json.Fields
import StoryScript.Json.Reader

/-! # Calls in documents

A call is a record of its name and arguments, an argument one of its keyword and value, and
a value one of its kind and content.
-/

namespace StoryScript

mutual

def Expr.toJson : Expr → Json
  | .text s => .object [("kind", .text "str"), ("value", .text s)]
  | .number n => .object [("kind", .text "number"), ("value", .number n)]
  | .name s => .object [("kind", .text "name"), ("value", .text s)]
  | .call name args =>
    .object [("kind", .text "call"),
      ("value", .object [("name", .text name), ("args", .array (Arg.listToJson args))])]

def Arg.toJson : Arg Expr → Json
  | ⟨keyword, value⟩ => .object (Json.member? "name" .text keyword ++ [("value", value.toJson)])

def Arg.listToJson : List (Arg Expr) → List Json
  | [] => []
  | arg :: args => Arg.toJson arg :: Arg.listToJson args

end

def Call.toJson (call : Call) : Json :=
  .object [("name", .text call.name), ("args", .array (Arg.listToJson call.args))]

/-- The names of the kinds of values, in the order in which documents number them. -/
def Expr.kinds : List String := ["str", "number", "name", "call"]

/-- The kind of the value that a document holds, its content and how that is held. The content
is kept if it stands before the kind. -/
def Expr.parts? (access : Json.Access) : Json → Option (String × Json × Json.Access)
  | .array [tag, content] =>
    (tag.tagName? access (kinds[·]?)).map fun kind => (kind, content, access)
  | .object members => do
    let tag ← (← Json.unique? "kind" members)
    let content ← (← Json.unique? "value" members)
    let kind ← tag.keyedTagName? access
    match access, members.find? fun member => member.1 == "kind" || member.1 == "value" with
    | .passing, some ("value", _) => if content.isReadable then some (kind, content, .kept) else none
    | _, _ => some (kind, content, access)
  | _ => none

/-- The argument that a document holds, given a reader of values. -/
def Arg.read? (readValue : Json → Option Expr) (document : Json) : Option (Arg Expr) := do
  match ← document.fields? ["name", "value"] with
  | [keyword, value] =>
    return ⟨← Json.optional? Json.asText? keyword, ← Json.required? readValue value⟩
  | _ => none

def Call.read? (readValue : Json → Option Expr) (document : Json) : Option Call := do
  match ← document.fields? ["name", "args"] with
  | [name, args] =>
    return ⟨← Json.required? Json.asText? name, ← Json.listOrEmpty? (Arg.read? readValue) args⟩
  | _ => none

def Expr.readWithin : Nat → Json.Access → Json → Option Expr
  | 0, _, _ => none
  | depth + 1, access, document => do
    let (kind, content, access) ← Expr.parts? access document
    match kind with
    | "str" => content.asText?.map .text
    | "number" => content.asNumber?.map .number
    | "name" => content.asText?.map .name
    | "call" =>
      (Call.read? (Expr.readWithin depth access) content).map fun call => .call call.name call.args
    | _ => none

def Call.ofJson? (access : Json.Access) (document : Json) : Option Call :=
  Call.read? (Expr.readWithin document.depth access) document

/-- The call that the text of a document holds. It is read in passing. -/
def Call.ofDocument? (text : String) : Option Call :=
  (Json.parse? text.toList).bind (Call.ofJson? .passing)

end StoryScript
