import StoryScript.Command
import StoryScript.Document.Call

/-! # Commands in documents

A script is kept as an array of commands. A command is a record tagged with the name of its
kind; a kind with an unknown name is read as unsupported, whatever its fields. Fields without
a value are left out.
-/

namespace StoryScript

namespace Command

mutual

def toJson : Command → Json
  | .label name body =>
    .object [("type", .text "label"), ("name", .text name), ("commands", .array (listToJson body))]
  | .scene image transition =>
    .object ([("type", .text "scene"), ("image", .text image)] ++
      Json.member? "transition" .text transition)
  | .dialogue speaker text =>
    .object (("type", .text "dialogue") :: Json.member? "speaker" .text speaker ++
      [("text", .text text)])
  | .menu choices =>
    .object [("type", .text "menu"), ("choices", .array (choicesToJson choices))]
  | .strayChoice choice => .object (("type", .text "menu_choice") :: choiceMembers choice)
  | .ifBranch condition body =>
    .object [("type", .text "if_condition"), ("condition", .text condition),
      ("commands", .array (listToJson body))]
  | .elifBranch condition body =>
    .object [("type", .text "elif_condition"), ("condition", .text condition),
      ("commands", .array (listToJson body))]
  | .elseBranch body => .object [("type", .text "else"), ("commands", .array (listToJson body))]
  | .define name value definition =>
    .object ([("type", .text "define"), ("name", .text name), ("value", .text value)] ++
      Json.member? "definition" Call.toJson definition)
  | .playMusic file fadeIn =>
    .object ([("type", .text "play_music"), ("file", .text file)] ++
      Json.member? "fade_in" .number fadeIn)
  | .stopMusic fadeOut =>
    .object (("type", .text "stop_music") :: Json.member? "fade_out" .number fadeOut)
  | .showImage image position transition =>
    .object ([("type", .text "show"), ("image", .text image)] ++
      Json.member? "position" .text position ++ Json.member? "transition" .text transition)
  | .hideImage image transition =>
    .object ([("type", .text "hide"), ("image", .text image)] ++
      Json.member? "transition" .text transition)
  | .pause duration =>
    .object (("type", .text "pause") :: Json.member? "duration" .number duration)
  | .jump target => .object [("type", .text "jump"), ("label", .text target)]
  | .finish => .object [("type", .text "return")]
  | .unsupported => .object [("type", .text "unsupported")]

def listToJson : List Command → List Json
  | [] => []
  | command :: commands => command.toJson :: listToJson commands

def choiceMembers : Choice Command → List (String × Json)
  | ⟨prompt, body⟩ => [("text", .text prompt), ("commands", .array (listToJson body))]

def choicesToJson : List (Choice Command) → List Json
  | [] => []
  | choice :: choices => .object (choiceMembers choice) :: choicesToJson choices

end

end Command

def scriptToJson (script : List Command) : Json :=
  .array (Command.listToJson script)

/-- The choice that a document holds, given a reader of commands. -/
def Choice.read? (readCommand : Json → Option Command) (document : Json) :
    Option (Choice Command) := do
  match ← document.fields? ["text", "commands"] with
  | [prompt, body] =>
    return ⟨← Json.required? Json.asText? prompt, ← Json.listOrEmpty? readCommand body⟩
  | _ => none

namespace Command

/-- The command of a kind whose other fields a document holds, given a reader of commands. -/
def read? (readCommand : Json → Option Command) (kind : String) (document : Json) :
    Option Command :=
  match kind with
  | "label" => do
    match ← document.fields? ["name", "commands"] with
    | [name, body] =>
      return .label (← Json.required? Json.asText? name) (← Json.listOrEmpty? readCommand body)
    | _ => none
  | "scene" => do
    match ← document.fields? ["image", "transition"] with
    | [image, transition] =>
      return .scene (← Json.required? Json.asText? image)
        (← Json.optional? Json.asText? transition)
    | _ => none
  | "dialogue" => do
    match ← document.fields? ["speaker", "text"] with
    | [speaker, text] =>
      return .dialogue (← Json.optional? Json.asText? speaker)
        (← Json.required? Json.asText? text)
    | _ => none
  | "menu" => do
    match ← document.fields? ["choices"] with
    | [choices] => return .menu (← Json.listOrEmpty? (Choice.read? readCommand) choices)
    | _ => none
  | "menu_choice" => (Choice.read? readCommand document).map .strayChoice
  | "if_condition" => do
    match ← document.fields? ["condition", "commands"] with
    | [condition, body] =>
      return .ifBranch (← Json.required? Json.asText? condition)
        (← Json.listOrEmpty? readCommand body)
    | _ => none
  | "elif_condition" => do
    match ← document.fields? ["condition", "commands"] with
    | [condition, body] =>
      return .elifBranch (← Json.required? Json.asText? condition)
        (← Json.listOrEmpty? readCommand body)
    | _ => none
  | "else" => do
    match ← document.fields? ["commands"] with
    | [body] => return .elseBranch (← Json.listOrEmpty? readCommand body)
    | _ => none
  | "define" => do
    match ← document.fields? ["name", "value", "definition"] with
    | [name, value, definition] =>
      return .define (← Json.required? Json.asText? name) (← Json.required? Json.asText? value)
        (← Json.optional? (Call.ofJson? .kept) definition)
    | _ => none
  | "play_music" => do
    match ← document.fields? ["file", "fade_in"] with
    | [file, fadeIn] =>
      return .playMusic (← Json.required? Json.asText? file)
        (← Json.optional? Json.asNumber? fadeIn)
    | _ => none
  | "stop_music" => do
    match ← document.fields? ["fade_out"] with
    | [fadeOut] => return .stopMusic (← Json.optional? Json.asNumber? fadeOut)
    | _ => none
  | "show" => do
    match ← document.fields? ["image", "position", "transition"] with
    | [image, position, transition] =>
      return .showImage (← Json.required? Json.asText? image)
        (← Json.optional? Json.asText? position) (← Json.optional? Json.asText? transition)
    | _ => none
  | "hide" => do
    match ← document.fields? ["image", "transition"] with
    | [image, transition] =>
      return .hideImage (← Json.required? Json.asText? image)
        (← Json.optional? Json.asText? transition)
    | _ => none
  | "pause" => do
    match ← document.fields? ["duration"] with
    | [duration] => return .pause (← Json.optional? Json.asNumber? duration)
    | _ => none
  | "jump" => do
    match ← document.fields? ["label"] with
    | [target] => return .jump (← Json.required? Json.asText? target)
    | _ => none
  | "return" => if document.isBare then some .finish else none
  | _ => if document.isBare then some .unsupported else none

/-- The command that a document of at most the depth given holds. The commands inside it are
kept until its kind is known. -/
def readWithin : Nat → Json.Access → Json → Option Command
  | 0, _, _ => none
  | depth + 1, access, document => do
    let (tag, fields) ← document.tagged?
    let kind ← tag.tagName? access fun n => some (kinds.getD n "unsupported")
    read? (readWithin depth .kept) kind fields

end Command

def scriptOfJson? (document : Json) : Option (List Command) :=
  document.asList? (Command.readWithin document.depth .passing)

end StoryScript
