/-! # Faults of calls

A text that is not a call is faulted at the place where reading stopped. The message shows
the place, under the whole text if that is one line and under the line concerned otherwise,
and says what was expected there.
-/

namespace StoryScript.Call

inductive Expectation where
  | closingQuote
  | separator
deriving DecidableEq, Repr

structure Fault where
  /-- The part of the text that was not read. -/
  unread : List Char
  /-- Whether reading stopped inside the value of an argument. -/
  inValue : Bool
  expected : Option Expectation
deriving DecidableEq, Repr

def Expectation.message : Expectation → String
  | .closingQuote => "closing quote"
  | .separator => "`,` or `)`"

def byteCount (s : List Char) : Nat :=
  s.foldl (fun count c => count + c.utf8Size) 0

def splitLastLine (s : List Char) : List Char × List Char :=
  let line := (s.reverse.takeWhile (· != '\n')).reverse
  (s.take (s.length - line.length), line)

/-- A mark under the column with the number given, counted from zero. -/
def caret (column : Nat) : List Char :=
  List.replicate column ' ' ++ ['^', '\n']

def placeInLine (input before : List Char) : List Char :=
  input ++ '\n' :: caret (byteCount before)

/-- The place in a text of several lines. The column counts characters, or bytes if a
character of several bytes stands there. -/
def placeInLines (before unread : List Char) : List Char :=
  let (earlier, start) := splitLastLine before
  let line := start ++ unread.takeWhile (· != '\n')
  let column :=
    match unread with
    | c :: _ => if c.utf8Size = 1 then start.length else byteCount start
    | [] => start.length
  let number := Nat.toDigits 10 (earlier.count '\n' + 1)
  let margin := List.replicate number.length ' '
  "parse error at line ".toList ++ number ++ ", column ".toList ++
    Nat.toDigits 10 (column + 1) ++ '\n' :: margin ++ " |\n".toList ++ number ++
    " | ".toList ++ line ++ '\n' :: margin ++ " | ".toList ++ caret column

def Fault.message (input : List Char) (fault : Fault) : String :=
  let before := input.take (input.length - fault.unread.length)
  let place :=
    if input.contains '\n' then placeInLines before fault.unread else placeInLine input before
  let reasons :=
    (if fault.inValue then ["invalid value"] else []) ++
      (fault.expected.map fun e => "expected " ++ e.message).toList
  .ofList place ++ "\n".intercalate reasons

end StoryScript.Call
