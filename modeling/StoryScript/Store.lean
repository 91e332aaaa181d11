import StoryScript.Character
import StoryScript.Value

/-! # Stores

A store holds the variables and the characters of a story that is being played.
-/

namespace StoryScript

/-- The variables and characters of a story that is being played. -/
structure Store where
  values : Table Value
  characters : Table Character
deriving Repr, Inhabited

namespace Store

instance : EmptyCollection Store := ⟨⟨∅, ∅⟩⟩

def get? (store : Store) (name : String) : Option Value :=
  store.values.get? name

def set (store : Store) (name : String) (value : Value) : Store :=
  { store with values := store.values.insert name value }

def character? (store : Store) (id : String) : Option Character :=
  store.characters.get? id

def define (store : Store) (id : String) (character : Character) : Store :=
  { store with characters := store.characters.insert id character }

/-- The display name of a speaker; an id that names no character stands for itself. -/
def displayName (store : Store) (id : String) : String :=
  match store.character? id with
  | some character => character.name
  | none => id

end Store

end StoryScript
