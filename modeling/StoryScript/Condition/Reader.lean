import StoryScript.Condition.Basic
import StoryScript.Text.Cut

/-! # Reading conditions

The word `and` joins clauses, the word `or` the tests of a clause, and each counts only
between two spaces. The word `not` at the start of a condition negates all of it, and at the
start of a later test that test alone. Every text is a condition.
-/

namespace StoryScript

namespace Text

theorem length_trimStart_le (s : List Char) : (trimStart s).length ≤ s.length :=
  (List.dropWhile_sublist _).length_le

end Text

def negationWord : List Char := ['n', 'o', 't', ' ']

def conjunctionWord : List Char := [' ', 'a', 'n', 'd', ' ']

def disjunctionWord : List Char := [' ', 'o', 'r', ' ']

theorem length_trimStart_lt_of_after?_negationWord {s rest : List Char}
    (h : Text.after? negationWord s = some rest) : (Text.trimStart rest).length < s.length := by
  have := Text.length_trimStart_le rest
  rw [Text.after?_eq_some_iff.1 h, negationWord]
  simp only [List.cons_append, List.nil_append, List.length_cons]
  omega

namespace Relation

/-- The signs of relations. Where several stand in a text, the first of this list counts. -/
def signs : List (List Char × Relation) :=
  [(['=', '='], equal), (['!', '='], notEqual), (['>', '='], atLeast), (['<', '='], atMost),
    (['>'], greater), (['<'], less)]

end Relation

namespace Test

def readOperand (s : List Char) : String :=
  .ofList (Text.dropEndWhile Text.Quoted.isQuote ((Text.trim s).dropWhile Text.Quoted.isQuote))

def readComparison? (s : List Char) : Option Test :=
  Relation.signs.findSome? fun (sign, relation) =>
    (Text.cut? sign s).map fun (left, right) =>
      comparison relation (readOperand left) (readOperand right)

def readTrimmed (s : List Char) : Test :=
  match Value.truth? s with
  | some value => constant value
  | none =>
    match _h : Text.after? negationWord s with
    | some rest => negation (readTrimmed (Text.trimStart rest))
    | none => (readComparison? s).getD (truthOf (.ofList s))
termination_by s.length
decreasing_by exact length_trimStart_lt_of_after?_negationWord _h

def read (s : List Char) : Test :=
  readTrimmed (Text.trim s)

end Test

namespace Condition

/-- The condition that a text without blanks at its ends denotes. -/
def readTrimmed (s : List Char) : Condition :=
  match _h : Text.after? negationWord s with
  | some rest => (readTrimmed (Text.trimStart rest)).negate
  | none =>
    ⟨false, (Text.pieces conjunctionWord s).map fun clause =>
      (Text.pieces disjunctionWord clause).map Test.read⟩
termination_by s.length
decreasing_by exact length_trimStart_lt_of_after?_negationWord _h

def read (s : List Char) : Condition :=
  readTrimmed (Text.trim s)

def evaluate (lookup : Variables) (s : String) : Bool :=
  (read s.toList).holds lookup

end Condition

end StoryScript
