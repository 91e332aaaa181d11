import StoryScript.Call.Reader
import StoryScript.Command
import StoryScript.Text.Cut
import StoryScript.Text.Words

/-! # Statements

A statement is read by itself, whatever stands around it. The forms are tried in a fixed
order and the first that fits decides; a line that fits none is ignored. A quoted literal
with a colon is a choice inside a menu and a line of the narrator elsewhere.
-/

namespace StoryScript.Script

open Text

/-- The head of a command with a body. -/
inductive Header where
  | label (name : String)
  | menu
  | choice (prompt : String)
  | ifBranch (condition : String)
  | elifBranch (condition : String)
  | elseBranch
deriving DecidableEq, Repr

inductive Statement where
  | ignored
  | simple (command : Command)
  | header (header : Header)
  /-- A quoted literal followed by a colon. -/
  | prompt (text : String)
deriving Repr

inductive StatementFault where
  /-- The right-hand side of a definition begins like a call but is none. -/
  | malformedDefinition (message : String)
  | invalidNumber
deriving DecidableEq, Repr

abbrev Reading := Except StatementFault Statement

namespace Statement

def afterWord? (word : String) (line : List Char) : Option (List Char) :=
  after? word.toList line

def afterWholeWord? (word : String) (line : List Char) : Option (List Char) :=
  match afterWord? word line with
  | some [] => some []
  | some (' ' :: rest) => some (' ' :: rest)
  | _ => none

/-- The text before a colon at the end of a line, without blanks around it. -/
def beforeColon? (line : List Char) : Option (List Char) :=
  if line.getLast? = some ':' then some (trim line.dropLast) else none

def joined (ws : List (List Char)) : String :=
  .ofList (unwords ws)

def clauseText? (clauses : Clauses) (keyword : String) : Option String :=
  (clauses.clause? keyword.toList).map joined

def readClauses (keywords : List String) (s : List Char) : Clauses :=
  .read (keywords.map String.toList) s

def readNumber (s : List Char) : Except StatementFault Number :=
  match Number.ofText? (trim s) with
  | some n => .ok n
  | none => .error .invalidNumber

def readClauseNumber (clauses : Clauses) (keyword : String) :
    Except StatementFault (Option Number) :=
  match clauses.clause? keyword.toList with
  | none => .ok none
  | some ws => (readNumber (unwords ws)).map some

/-- `label NAME:` with the name up to the first colon. -/
def label? (line : List Char) : Option Reading :=
  (afterWord? "label " line).map fun rest =>
    .ok (.header (.label (.ofList (trim (rest.takeWhile (· != ':'))))))

/-- `scene IMAGE with TRANSITION`. -/
def scene? (line : List Char) : Option Reading :=
  (afterWord? "scene " line).map fun rest =>
    let clauses := readClauses ["with"] rest
    .ok (.simple (.scene (joined clauses.subject) (clauseText? clauses "with")))

/-- `define NAME = VALUE`, where a value that begins like a call has to be one. Without an
equals sign the line is ignored. -/
def define? (line : List Char) : Option Reading :=
  (afterWord? "define " line).map fun rest =>
    match cutAt? '=' rest with
    | none => .ok .ignored
    | some (name, value) =>
      let name := String.ofList (trim name)
      let value := String.ofList (trim value)
      if Call.looksLikeCall value then
        match Call.read value with
        | .ok call => .ok (.simple (.define name value (some call)))
        | .error message => .error (.malformedDefinition message)
      else .ok (.simple (.define name value none))

/-- `$ NAME = VALUE`. Without an equals sign or with another target the line is ignored. -/
def assignment? (line : List Char) : Option Reading :=
  (afterWord? "$ " line).map fun rest =>
    match cutAt? '=' rest with
    | none => .ok .ignored
    | some (name, value) =>
      let name := trim name
      if !name.isEmpty && name.all isNameChar then
        .ok (.simple (.define (.ofList name) (.ofList (trim value)) none))
      else .ok .ignored

/-- `menu:`. -/
def menu? (line : List Char) : Option Reading :=
  if beforeColon? line = some "menu".toList then some (.ok (.header .menu)) else none

/-- `"PROMPT":`. -/
def prompt? (line : List Char) : Option Reading :=
  match Quoted.read? line with
  | some (content, rest) =>
    if trim rest = [':'] then some (.ok (.prompt (.ofList content))) else none
  | none => none

/-- The condition of a branch, without colons at its end. -/
def conditionText (s : List Char) : String :=
  .ofList (trim (dropEndWhile (· == ':') (trim s)))

/-- `if CONDITION:`. -/
def ifBranch? (line : List Char) : Option Reading :=
  (afterWord? "if " line).map fun rest => .ok (.header (.ifBranch (conditionText rest)))

/-- `elif CONDITION:`. -/
def elifBranch? (line : List Char) : Option Reading :=
  (afterWord? "elif " line).map fun rest => .ok (.header (.elifBranch (conditionText rest)))

/-- `else:`. -/
def elseBranch? (line : List Char) : Option Reading :=
  if beforeColon? line = some "else".toList then some (.ok (.header .elseBranch)) else none

/-- `jump LABEL`. -/
def jump? (line : List Char) : Option Reading :=
  (afterWord? "jump " line).map fun rest => .ok (.simple (.jump (.ofList (trim rest))))

/-- `pause` or `pause SECONDS`. -/
def pause? (line : List Char) : Option Reading :=
  (afterWholeWord? "pause" line).map fun rest =>
    if (trim rest).isEmpty then .ok (.simple (.pause none))
    else (readNumber rest).map fun n => .simple (.pause (some n))

/-- `play music FILE fadein SECONDS`, where the file is a quoted literal or one word. -/
def playMusic? (line : List Char) : Option Reading :=
  (afterWord? "play music " line).map fun rest =>
    let rest := trim rest
    let (file, rest) := (Quoted.read? rest).getD (rest.span (!isBlank ·))
    (readClauseNumber (readClauses ["fadein"] rest) "fadein").map fun fadeIn =>
      .simple (.playMusic (.ofList file) fadeIn)

/-- `stop music fadeout SECONDS`. -/
def stopMusic? (line : List Char) : Option Reading :=
  (afterWholeWord? "stop music" line).map fun rest =>
    (readClauseNumber (readClauses ["fadeout"] rest) "fadeout").map fun fadeOut =>
      .simple (.stopMusic fadeOut)

/-- `show IMAGE at POSITION with TRANSITION`, where the image is not empty. -/
def showImage? (line : List Char) : Option Reading :=
  match afterWord? "show " line with
  | none => none
  | some rest =>
    let clauses := readClauses ["at", "with"] rest
    if clauses.subject.isEmpty then none
    else
      some (.ok (.simple (.showImage (joined clauses.subject) (clauseText? clauses "at")
        (clauseText? clauses "with"))))

/-- `hide IMAGE with TRANSITION`, where the image is not empty. -/
def hideImage? (line : List Char) : Option Reading :=
  match afterWord? "hide " line with
  | none => none
  | some rest =>
    let clauses := readClauses ["with"] rest
    if clauses.subject.isEmpty then none
    else some (.ok (.simple (.hideImage (joined clauses.subject) (clauseText? clauses "with"))))

/-- `return`. -/
def finish? (line : List Char) : Option Reading :=
  if line = "return".toList then some (.ok (.simple .finish)) else none

/-- Whether a text consists of words made of the characters of names. -/
def isSpeaker (s : List Char) : Bool :=
  s.all fun c => isBlank c || isNameChar c

/-- The text of a line of speech that begins with a quote. A literal without an end runs to
the end of the line, less the quotes that stand there. -/
def speech : List Char → List Char
  | [] => []
  | quote :: rest =>
    match Quoted.read? (quote :: rest) with
    | some (content, _) => content
    | none => dropEndWhile (· == quote) rest

/-- `SPEAKER "TEXT"` or `"TEXT"`. What follows the text is ignored. -/
def dialogue? (line : List Char) : Option Reading :=
  match line.span (!Quoted.isQuote ·) with
  | (_, []) => none
  | (before, quoted) =>
    let speaker := trim before
    if isSpeaker speaker then
      some (.ok (.simple (.dialogue
        (if speaker.isEmpty then none else some (.ofList speaker)) (.ofList (speech quoted)))))
    else none

/-- The forms of statements, in the order in which they are tried. -/
def forms : List (List Char → Option Reading) :=
  [label?, scene?, define?, assignment?, menu?, prompt?, ifBranch?, elifBranch?, elseBranch?,
    jump?, pause?, playMusic?, stopMusic?, showImage?, hideImage?, finish?, dialogue?]

def read (line : List Char) : Reading :=
  (forms.findSome? (· line)).getD (.ok .ignored)

end Statement

end StoryScript.Script
