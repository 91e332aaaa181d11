import StoryScript.Call.Basic

/-! # Commands

A script is a tree of commands. Labels, the branches of conditions and the choices of menus
have bodies, which are lists of commands again.
-/

namespace StoryScript

/-- A choice of a menu: its prompt and what follows when it is taken. -/
structure Choice (α : Type) where
  prompt : String
  body : List α
deriving Repr, Inhabited

inductive Command where
  | label (name : String) (body : List Command)
  | scene (image : String) (transition : Option String)
  /-- A line of a speaker, or of the narrator if there is none. -/
  | dialogue (speaker : Option String) (text : String)
  | menu (choices : List (Choice Command))
  /-- A choice that stands outside any menu. -/
  | strayChoice (choice : Choice Command)
  | ifBranch (condition : String) (body : List Command)
  | elifBranch (condition : String) (body : List Command)
  | elseBranch (body : List Command)
  /-- A definition, its right-hand side as written and, if it is a call, as a call. -/
  | define (name : String) (value : String) (definition : Option Call)
  | playMusic (file : String) (fadeIn : Option Number)
  | stopMusic (fadeOut : Option Number)
  | showImage (image : String) (position transition : Option String)
  | hideImage (image : String) (transition : Option String)
  | pause (duration : Option Number)
  | jump (label : String)
  /-- The end of the story, whatever encloses it. -/
  | finish
  /-- A command of a kind that this language does not have. -/
  | unsupported
deriving Repr, Inhabited

namespace Command

/-- The names of the kinds of commands, in the order in which documents number them. -/
def kinds : List String :=
  ["label", "scene", "dialogue", "menu", "menu_choice", "if_condition", "elif_condition",
    "else", "define", "play_music", "stop_music", "show", "hide", "pause", "jump", "return",
    "unsupported"]

def kind : Command → String
  | label .. => "label"
  | scene .. => "scene"
  | dialogue .. => "dialogue"
  | menu .. => "menu"
  | strayChoice .. => "menu_choice"
  | ifBranch .. => "if_condition"
  | elifBranch .. => "elif_condition"
  | elseBranch .. => "else"
  | define .. => "define"
  | playMusic .. => "play_music"
  | stopMusic .. => "stop_music"
  | showImage .. => "show"
  | hideImage .. => "hide"
  | pause .. => "pause"
  | jump .. => "jump"
  | finish => "return"
  | unsupported => "unsupported"

def isBranch : Command → Bool
  | ifBranch .. => true
  | elifBranch .. => true
  | elseBranch .. => true
  | _ => false

def isLabel (name : String) : Command → Bool
  | label n _ => n == name
  | _ => false

end Command

end StoryScript
