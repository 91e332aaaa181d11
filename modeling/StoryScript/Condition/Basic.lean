import StoryScript.Value

/-! # Conditions

A condition is a conjunction of disjunctions of tests, or the negation of one. Its value
depends on the variables of the story. An operand that names no variable stands for its own
text, so evaluation never fails.
-/

namespace StoryScript

/-- How the two sides of a comparison are to be ordered. -/
inductive Relation where
  | equal
  | notEqual
  | atLeast
  | atMost
  | greater
  | less
deriving DecidableEq, Repr, Inhabited

namespace Relation

def admits : Relation → Ordering → Bool
  | equal, order => order == .eq
  | notEqual, order => order != .eq
  | atLeast, order => order != .lt
  | atMost, order => order != .gt
  | greater, order => order == .gt
  | less, order => order == .lt

end Relation

abbrev Variables := String → Option Value

inductive Test where
  | constant (value : Bool)
  | negation (test : Test)
  | comparison (relation : Relation) (left right : String)
  /-- The truth of a variable. -/
  | truthOf (name : String)
deriving DecidableEq, Repr, Inhabited

namespace Test

/-- The text that an operand denotes: the value of the variable it names, or itself. -/
def resolve (lookup : Variables) (operand : String) : String :=
  match lookup operand with
  | some value => value.display
  | none => operand

/-- The order of two texts: as numbers if both are, and by their lower-case forms
otherwise. -/
def order? (left right : String) : Option Ordering :=
  match Number.ofText? left.toList, Number.ofText? right.toList with
  | some a, some b => a.compare? b
  | _, _ =>
    some (compare (String.ofList (Text.lowercase left.toList))
      (.ofList (Text.lowercase right.toList)))

/-- Whether a test holds. A comparison without an order fails, and so does a variable that is
not set. -/
def holds (lookup : Variables) : Test → Bool
  | constant value => value
  | negation test => !test.holds lookup
  | comparison relation left right =>
    (order? (resolve lookup left) (resolve lookup right)).any relation.admits
  | truthOf name =>
    match lookup name with
    | some value => !value.isFalse
    | none => false

end Test

/-- A conjunction of disjunctions of tests, or its negation. -/
structure Condition where
  negated : Bool
  clauses : List (List Test)
deriving DecidableEq, Repr, Inhabited

namespace Condition

def negate (condition : Condition) : Condition :=
  { condition with negated := !condition.negated }

def everyClause (lookup : Variables) (condition : Condition) : Bool :=
  condition.clauses.all fun clause => clause.any fun test => test.holds lookup

def someTest (lookup : Variables) (condition : Condition) : Bool :=
  condition.clauses.flatten.any fun test => test.holds lookup

/-- Whether a condition holds. Its clauses are looked at one by one, and then its tests all
together. -/
def holds (lookup : Variables) (condition : Condition) : Bool :=
  condition.negated != (condition.everyClause lookup && condition.someTest lookup)

end Condition

end StoryScript
