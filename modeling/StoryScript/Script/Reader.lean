import StoryScript.Script.Outline

/-! # Reading scripts

A script is read in three steps: its structural lines, the statement on each of them, and
the outline that their indentation makes. Only the second step and an open block can fail.
Of several faults the first line with a faulty statement is reported, and a block without an
end only if there is none.
-/

namespace StoryScript

inductive ScriptError where
  /-- A definition begins like a call but is none. -/
  | malformedDefinition (line : Nat) (text message : String)
  | invalidNumber (line : Nat) (text : String)
  /-- A triple-quoted block has no end. -/
  | unterminatedBlock (line : Nat) (text : String)
deriving DecidableEq, Repr

namespace ScriptError

def line : ScriptError → Nat
  | malformedDefinition line _ _ => line
  | invalidNumber line _ => line
  | unterminatedBlock line _ => line

def message : ScriptError → String
  | malformedDefinition line text message =>
    "Malformed definition at line " ++ toString line ++ ": " ++ text ++ " (" ++ message ++ ")"
  | invalidNumber line text => "Invalid number at line " ++ toString line ++ ": " ++ text
  | unterminatedBlock line text =>
    "Unterminated string starting at line " ++ toString line ++ ": " ++ text

end ScriptError

namespace Script

def defaultTabWidth : UInt64 := 4

def StatementFault.toError (line : Nat) (text : List Char) : StatementFault → ScriptError
  | .malformedDefinition message => .malformedDefinition line (.ofList text) message
  | .invalidNumber => .invalidNumber line (.ofList text)

def Line.item (line : Line) : Except ScriptError Item :=
  match line.content with
  | .block speaker text => .ok (.block (speaker.map .ofList) (.ofList text))
  | .statement text =>
    match Statement.read text with
    | .ok statement => .ok (.statement statement)
    | .error fault => .error (fault.toError line.number text)

/-- What structural lines add to the outline, or the first error. -/
def readItems : List Line → Except ScriptError (List (Line × Item))
  | [] => .ok []
  | line :: lines =>
    match line.item with
    | .error error => .error error
    | .ok item => (readItems lines).map ((line, item) :: ·)

def readOutline (tabWidth : UInt64) (text : String) : Except ScriptError (List Entry) :=
  let (lines, unclosed) := structural tabWidth text.toList
  match readItems lines, unclosed with
  | .error error, _ => .error error
  | .ok _, some block => .error (.unterminatedBlock block.number (.ofList block.opening))
  | .ok items, none => .ok (outline items)

def read (tabWidth : UInt64) (text : String) : Except ScriptError (List Command) :=
  (readOutline tabWidth text).map Entry.toCommands

end Script

end StoryScript
