import StoryScript.Call.Basic
import StoryScript.Call.Fault
import StoryScript.Number.Numeral
import StoryScript.Text.Blank
import StoryScript.Text.Letter
import StoryScript.Text.Quoted

/-! # Reading calls

A call is a name and arguments in parentheses, separated by commas; a comma may stand after
the last one. A value is a quoted literal, a name, a call or a number. Spaces, tabs and
line ends may stand around parentheses, commas and the equals sign of a keyword.
-/

namespace StoryScript.Call

open Text

def skipBlanks (s : List Char) : List Char :=
  s.dropWhile fun c => c == ' ' || c == '\t' || c == '\r' || c == '\n'

def afterSymbol? (symbol : Char) (s : List Char) : Option (List Char) :=
  match skipBlanks s with
  | [] => none
  | c :: rest => if c = symbol then some (skipBlanks rest) else none

def readName? : List Char → Option (List Char × List Char)
  | [] => none
  | c :: s =>
    if isLetter c || c == '_' then
      let (name, rest) := s.span isNameChar
      some (c :: name, rest)
    else none

/-- The keyword of an argument and the text of its value. Two equals signs in a row make no
keyword. -/
def readKeyword? (s : List Char) : Option (List Char × List Char) :=
  match readName? s with
  | none => none
  | some (name, rest) =>
    match afterSymbol? '=' rest with
    | none => none
    | some ('=' :: _) => none
    | some value => some (name, value)

/-- A quoted literal as a value, if the text begins with a quote. -/
def readLiteral? : List Char → Option (Except Fault (List Char × List Char))
  | [] => none
  | quote :: s =>
    if Quoted.isQuote quote then
      some <|
        match Quoted.readBody quote s with
        | .ok found => .ok found
        | .error .unclosed => .error ⟨[], true, some .closingQuote⟩
        | .error .danglingEscape => .error ⟨[], true, none⟩
    else none

/-- The value at the start of a text, given a reader of arguments. -/
def readExpr (readArgs : List Char → Except Fault (List (Arg Expr) × List Char))
    (s : List Char) : Except Fault (Expr × List Char) :=
  match readLiteral? s with
  | some (.ok (content, rest)) => .ok (.text (.ofList content), rest)
  | some (.error fault) => .error fault
  | none =>
    match readName? s with
    | some (name, rest) =>
      match afterSymbol? '(' rest with
      | none => .ok (.name (.ofList name), rest)
      | some inside =>
        match readArgs inside with
        | .ok (args, rest) => .ok (.call (.ofList name) args, rest)
        | .error fault => .error { fault with inValue := true }
    | none =>
      match Numeral.read s with
      | .ok (n, rest) => .ok (.number n, rest)
      | .error unread => .error ⟨unread, true, none⟩

/-- The arguments after an opening parenthesis, up to the closing one and the blanks after
it. At most `fuel` arguments follow or nest in one another. -/
def readArgsWithin : Nat → List Char → Except Fault (List (Arg Expr) × List Char)
  | 0, s => .error ⟨s, false, none⟩
  | fuel + 1, s =>
    match afterSymbol? ')' s with
    | some rest => .ok ([], rest)
    | none =>
      let (keyword, valueText) :=
        match readKeyword? s with
        | some (name, rest) => (some (String.ofList name), rest)
        | none => (none, s)
      match readExpr (readArgsWithin fuel) valueText with
      | .error fault => .error fault
      | .ok (value, rest) =>
        match afterSymbol? ',' rest with
        | some rest =>
          (readArgsWithin fuel rest).map fun (args, rest) => (⟨keyword, value⟩ :: args, rest)
        | none =>
          match afterSymbol? ')' rest with
          | some rest => .ok ([⟨keyword, value⟩], rest)
          | none => .error ⟨skipBlanks rest, false, some .separator⟩

/-- The arguments after an opening parenthesis. Every argument takes up text, so the length
of the text bounds their number. -/
def readArgs (s : List Char) : Except Fault (List (Arg Expr) × List Char) :=
  readArgsWithin (s.length + 1) s

/-- The call that a text without blanks around it denotes as a whole. -/
def readTrimmed (s : List Char) : Except Fault Call :=
  match readName? s with
  | none => .error ⟨s, false, none⟩
  | some (name, rest) =>
    match afterSymbol? '(' rest with
    | none => .error ⟨skipBlanks rest, false, none⟩
    | some inside =>
      match readArgs inside with
      | .error fault => .error fault
      | .ok (args, []) => .ok ⟨.ofList name, args⟩
      | .ok (_, unread) => .error ⟨unread, false, none⟩

/-- The call that a text denotes, or the message about its fault. -/
def read (s : String) : Except String Call :=
  let input := trim s.toList
  match readTrimmed input with
  | .ok call => .ok call
  | .error fault => .error (fault.message input)

/-- Whether a text begins like a call, with a name and an opening parenthesis. The name may
begin with any character of names. -/
def looksLikeCall (s : String) : Bool :=
  match (trimStart s.toList).span isNameChar with
  | ([], _) => false
  | (_, rest) => (trimStart rest).head? == some '('

end StoryScript.Call
