import StoryScript.Number.Basic

/-! # Calls

The right-hand side of a definition may be a call, a name with a list of arguments. An
argument may be given by keyword.
-/

namespace StoryScript

structure Arg (α : Type) where
  keyword : Option String
  value : α
deriving Repr, Inhabited

inductive Expr where
  | text (value : String)
  | number (value : Number)
  | name (value : String)
  | call (name : String) (args : List (Arg Expr))
deriving Repr, Inhabited

structure Call where
  name : String
  args : List (Arg Expr)
deriving Repr, Inhabited

end StoryScript
