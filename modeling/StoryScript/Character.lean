import StoryScript.Call.Basic
import StoryScript.Table

/-! # Characters

A character has a display name, a colour and further settings. A definition by a call takes
the texts among the arguments: the first positional text is the display name unless a
keyword gives it, and every keyword other than `name` and `color` is a further setting.
-/

namespace StoryScript

structure Character where
  name : String
  color : String
  extra : Table String
deriving DecidableEq, Repr, Inhabited

namespace Character

def defaultColor : String := "#ffffff"

structure Settings where
  name : Option String
  color : Option String
  extra : Table String

def Settings.add (settings : Settings) (arg : Arg Expr) : Settings :=
  match arg.value with
  | .text s =>
    match arg.keyword with
    | none => { settings with name := settings.name <|> some s }
    | some keyword =>
      if keyword = "name" then { settings with name := some s }
      else if keyword = "color" then { settings with color := some s }
      else { settings with extra := settings.extra.insert keyword s }
  | _ => settings

/-- The character that arguments describe; none if they give no name. -/
def ofArgs? (args : List (Arg Expr)) : Option Character :=
  let settings := args.foldl Settings.add ⟨none, none, ∅⟩
  settings.name.map fun name => ⟨name, settings.color.getD defaultColor, settings.extra⟩

end Character

end StoryScript
