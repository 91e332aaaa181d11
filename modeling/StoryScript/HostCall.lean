import StoryScript.Cue

/-! # Host calls

A plain host knows a few calls only. Speakers reach it by their ids, a scene is an image
without a position, and changes of the store are not reported.
-/

namespace StoryScript

inductive HostCall where
  | showDialogue (speaker text : String)
  | showNarration (text : String)
  | showImage (image : String) (position transition : Option String)
  | hideImage (image : String) (transition : Option String)
  | playMusic (file : String) (fadeIn : Option Number)
  | stopMusic (fadeOut : Option Number)
  | pause (seconds : Option Number)
  | showChoices (prompts : List String)
deriving Repr

def HostCall.ofCue? : Cue → Option HostCall
  | .speech (some speaker) text => some (showDialogue speaker.id text)
  | .speech none text => some (showNarration text)
  | .scene image transition => some (showImage image none transition)
  | .showImage image position transition => some (showImage image position transition)
  | .hideImage image transition => some (hideImage image transition)
  | .playMusic file fadeIn => some (playMusic file fadeIn)
  | .stopMusic fadeOut => some (stopMusic fadeOut)
  | .pause seconds => some (pause seconds)
  | .choices prompts => some (showChoices prompts)
  | .assign _ => none

end StoryScript
