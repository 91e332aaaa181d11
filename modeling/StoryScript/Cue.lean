import StoryScript.Command
import StoryScript.Store

/-! # Cues

A play tells its presentation what happens by cues: a line is spoken, an image appears, a
variable changes. A cue for a line carries the speaker both as written in the script and as
displayed.
-/

namespace StoryScript

inductive Assignment where
  | setVariable (name : String) (value : Value)
  | defineCharacter (id : String) (character : Character)
deriving DecidableEq, Repr

namespace Assignment

def characterCall : String := "Character"

/-- The change that a definition makes, if any. A call of the character constructor that
gives no name makes none. -/
def ofDefinition? (name value : String) (definition : Option Call) : Option Assignment :=
  match definition with
  | some call =>
    if call.name = characterCall then (Character.ofArgs? call.args).map (defineCharacter name)
    else some (setVariable name (.ofLiteral value))
  | none => some (setVariable name (.ofLiteral value))

end Assignment

def Store.assign (store : Store) : Assignment → Store
  | .setVariable name value => store.set name value
  | .defineCharacter id character => store.define id character

/-- Who speaks a line: the id in the script and the name on display. -/
structure Speaker where
  id : String
  name : String
deriving DecidableEq, Repr

def Store.speaker (store : Store) (id : String) : Speaker :=
  ⟨id, store.displayName id⟩

/-- What a presentation is told. -/
inductive Cue where
  /-- A line of a speaker, or of the narrator if there is none. -/
  | speech (speaker : Option Speaker) (text : String)
  | scene (image : String) (transition : Option String)
  | showImage (image : String) (position transition : Option String)
  | hideImage (image : String) (transition : Option String)
  | playMusic (file : String) (fadeIn : Option Number)
  | stopMusic (fadeOut : Option Number)
  | pause (seconds : Option Number)
  | choices (prompts : List String)
  | assign (assignment : Assignment)
deriving DecidableEq, Repr

end StoryScript
