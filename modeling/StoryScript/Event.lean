import StoryScript.Cue

/-! # Events

A transcript is a list of events. An event says what a reader of the story sees: speakers
appear under their names on display.
-/

namespace StoryScript

inductive Event where
  | dialogue (speaker text : String)
  | narration (text : String)
  | scene (image : String) (transition : Option String)
  | showImage (image : String) (position transition : Option String)
  | hideImage (image : String) (transition : Option String)
  | playMusic (file : String) (fadeIn : Option Number)
  | stopMusic (fadeOut : Option Number)
  | pause (seconds : Option Number)
  | choices (prompts : List String)
  | defineCharacter (id : String) (character : Character)
  | setVariable (name : String) (value : Value)
deriving DecidableEq, Repr

namespace Event

def ofAssignment : Assignment → Event
  | .setVariable name value => .setVariable name value
  | .defineCharacter id character => .defineCharacter id character

def ofCue : Cue → Event
  | .speech (some speaker) text => .dialogue speaker.name text
  | .speech none text => .narration text
  | .scene image transition => .scene image transition
  | .showImage image position transition => .showImage image position transition
  | .hideImage image transition => .hideImage image transition
  | .playMusic file fadeIn => .playMusic file fadeIn
  | .stopMusic fadeOut => .stopMusic fadeOut
  | .pause seconds => .pause seconds
  | .choices prompts => .choices prompts
  | .assign assignment => ofAssignment assignment

end Event

end StoryScript
