import StoryScript.Document.Store
import StoryScript.Event

/-! # Events in documents

An event is a record tagged with the name of its kind, and an unknown kind is refused. The
further settings of a character stand beside the other fields of its definition, so such a
record cannot be an array.
-/

namespace StoryScript.Event

def toJson : Event → Json
  | dialogue speaker text =>
    .object [("type", .text "dialogue"), ("speaker", .text speaker), ("text", .text text)]
  | narration text => .object [("type", .text "narration"), ("text", .text text)]
  | scene image transition =>
    .object ([("type", .text "scene"), ("image", .text image)] ++
      Json.member? "transition" .text transition)
  | showImage image position transition =>
    .object ([("type", .text "show"), ("image", .text image)] ++
      Json.member? "position" .text position ++ Json.member? "transition" .text transition)
  | hideImage image transition =>
    .object ([("type", .text "hide"), ("image", .text image)] ++
      Json.member? "transition" .text transition)
  | playMusic file fadeIn =>
    .object ([("type", .text "play_music"), ("file", .text file)] ++
      Json.member? "fade_in" .number fadeIn)
  | stopMusic fadeOut =>
    .object (("type", .text "stop_music") :: Json.member? "fade_out" .number fadeOut)
  | pause seconds => .object (("type", .text "pause") :: Json.member? "seconds" .number seconds)
  | choices prompts => .object [("type", .text "choices"), ("prompts", .texts prompts)]
  | defineCharacter id character =>
    .object ([("type", .text "define_character"), ("id", .text id)] ++ character.members)
  | setVariable name value =>
    .object [("type", .text "set_variable"), ("name", .text name), ("value", value.toJson)]

def read? (kind : String) (document : Json) : Option Event :=
  match kind with
  | "dialogue" => do
    match ← document.fields? ["speaker", "text"] with
    | [speaker, text] =>
      return dialogue (← Json.required? Json.asText? speaker) (← Json.required? Json.asText? text)
    | _ => none
  | "narration" => do
    match ← document.fields? ["text"] with
    | [text] => return narration (← Json.required? Json.asText? text)
    | _ => none
  | "scene" => do
    match ← document.fields? ["image", "transition"] with
    | [image, transition] =>
      return scene (← Json.required? Json.asText? image)
        (← Json.optional? Json.asText? transition)
    | _ => none
  | "show" => do
    match ← document.fields? ["image", "position", "transition"] with
    | [image, position, transition] =>
      return showImage (← Json.required? Json.asText? image)
        (← Json.optional? Json.asText? position) (← Json.optional? Json.asText? transition)
    | _ => none
  | "hide" => do
    match ← document.fields? ["image", "transition"] with
    | [image, transition] =>
      return hideImage (← Json.required? Json.asText? image)
        (← Json.optional? Json.asText? transition)
    | _ => none
  | "play_music" => do
    match ← document.fields? ["file", "fade_in"] with
    | [file, fadeIn] =>
      return playMusic (← Json.required? Json.asText? file)
        (← Json.optional? Json.asNumber? fadeIn)
    | _ => none
  | "stop_music" => do
    match ← document.fields? ["fade_out"] with
    | [fadeOut] => return stopMusic (← Json.optional? Json.asNumber? fadeOut)
    | _ => none
  | "pause" => do
    match ← document.fields? ["seconds"] with
    | [seconds] => return pause (← Json.optional? Json.asNumber? seconds)
    | _ => none
  | "choices" => do
    match ← document.fields? ["prompts"] with
    | [prompts] => return choices (← Json.required? (Json.asList? Json.asText?) prompts)
    | _ => none
  | "define_character" =>
    match document with
    | .object members => do
      let id ← Json.required? Json.asText? (← Json.unique? "id" members)
      let character ← Character.ofMembers? (members.filter (·.1 != "id"))
      return defineCharacter id character
    | _ => none
  | "set_variable" => do
    match ← document.fields? ["name", "value"] with
    | [name, value] =>
      return setVariable (← Json.required? Json.asText? name)
        (← Json.required? Value.ofJson? value)
    | _ => none
  | _ => none

def ofJson? (document : Json) : Option Event := do
  match ← document.tagged? with
  | (.text kind, fields) => read? kind fields
  | _ => none

def ofDocument? (text : String) : Option Event :=
  (Json.read? text.toList).bind ofJson?

end StoryScript.Event
