import StoryScript.Number.Layout
import StoryScript.Proofs.Text.Literal
import StoryScript.Proofs.Text.Words
import StoryScript.Script.Line
import StoryScript.Script.Statement

/-! # Writing scripts

A script is written with one statement on each line, indented by four spaces for each level of
nesting. What can be written is what the statements can say: names of words, conditions without a
colon at their end, speakers that begin like no other statement.
-/

namespace StoryScript

namespace Script

open Text

def clause (keyword : String) : Option (List Char) → List Char
  | none => []
  | some s => ' ' :: (keyword.toList ++ ' ' :: s)

def led (word : String) (rest : List Char) : List Char :=
  word.toList ++ rest

def IsOneLine (s : List Char) : Prop :=
  '\n' ∉ s ∧ '\r' ∉ s

instance (s : List Char) : Decidable (IsOneLine s) :=
  inferInstanceAs (Decidable (_ ∧ _))

/-- A text on one line without blanks around it. -/
structure IsTidy (s : List Char) : Prop where
  trimmed : trim s = s
  oneLine : IsOneLine s

instance (s : List Char) : Decidable (IsTidy s) :=
  decidable_of_iff (trim s = s ∧ IsOneLine s) ⟨fun h => ⟨h.1, h.2⟩, fun h => ⟨h.1, h.2⟩⟩

namespace Statement

def commandText : Command → List Char
  | .scene image transition =>
    led "scene " (image.toList ++ clause "with" (transition.map String.toList))
  | .dialogue none text => Quoted.literal text.toList
  | .dialogue (some speaker) text => speaker.toList ++ ' ' :: Quoted.literal text.toList
  | .define name value none => led "$ " (name.toList ++ led " = " value.toList)
  | .define name value (some _) => led "define " (name.toList ++ led " = " value.toList)
  | .playMusic file fadeIn =>
    led "play music " (Quoted.literal file.toList ++ clause "fadein" (fadeIn.map Number.text))
  | .stopMusic fadeOut => led "stop music" (clause "fadeout" (fadeOut.map Number.text))
  | .showImage image position transition =>
    led "show " (image.toList ++ (clause "at" (position.map String.toList) ++
      clause "with" (transition.map String.toList)))
  | .hideImage image transition =>
    led "hide " (image.toList ++ clause "with" (transition.map String.toList))
  | .pause none => led "pause" []
  | .pause (some seconds) => led "pause " seconds.text
  | .jump label => led "jump " label.toList
  | .finish => led "return" []
  | _ => []

def headerText : Header → List Char
  | .label name => led "label " (name.toList ++ [':'])
  | .menu => led "menu:" []
  | .ifBranch condition => led "if " (condition.toList ++ [':'])
  | .elifBranch condition => led "elif " (condition.toList ++ [':'])
  | .elseBranch => led "else:" []
  | .choice _ => []

def text : Statement → List Char
  | .ignored => []
  | .simple command => commandText command
  | .header opened => headerText opened
  | .prompt content => Quoted.literal content.toList ++ [':']

def openers : List String :=
  ["label ", "scene ", "define ", "$ ", "if ", "elif ", "jump ", "pause ", "play music ",
    "stop music ", "show ", "hide "]

/-- A name made of words with which no other statement begins. -/
structure IsSpeaker (s : List Char) : Prop where
  nonempty : s ≠ []
  tidy : IsTidy s
  names : isSpeaker s = true
  unopened : ∀ opener ∈ openers, ¬opener.toList <+: s ++ [' ']

instance (s : List Char) : Decidable (IsSpeaker s) :=
  decidable_of_iff
    (s ≠ [] ∧ IsTidy s ∧ isSpeaker s = true ∧
      ∀ opener ∈ openers, ¬opener.toList <+: s ++ [' '])
    ⟨fun h => ⟨h.1, h.2.1, h.2.2.1, h.2.2.2⟩, fun h => ⟨h.1, h.2, h.3, h.4⟩⟩

/-- Whether a command without a body can be written. -/
def IsWritableCommand : Command → Prop
  | .scene image transition =>
    IsPhrase ["with".toList] image.toList ∧
      ∀ t ∈ transition, IsPhrase ["with".toList] t.toList
  | .dialogue speaker text => (∀ s ∈ speaker, IsSpeaker s.toList) ∧ '\r' ∉ text.toList
  | .define name value none =>
    name.toList ≠ [] ∧ name.toList.all isNameChar ∧ IsTidy value.toList
  | .define name value (some call) =>
    IsTidy name.toList ∧ '=' ∉ name.toList ∧ IsTidy value.toList ∧
      Call.looksLikeCall value ∧ Call.read value = .ok call
  | .playMusic file fadeIn => '\r' ∉ file.toList ∧ ∀ n ∈ fadeIn, n.isFinite
  | .stopMusic fadeOut => ∀ n ∈ fadeOut, n.isFinite
  | .showImage image position transition =>
    IsPhrase ["at".toList, "with".toList] image.toList ∧
      (∀ p ∈ position, IsPhrase ["at".toList, "with".toList] p.toList) ∧
      ∀ t ∈ transition, IsPhrase ["at".toList, "with".toList] t.toList
  | .hideImage image transition =>
    IsPhrase ["with".toList] image.toList ∧
      ∀ t ∈ transition, IsPhrase ["with".toList] t.toList
  | .pause duration => ∀ n ∈ duration, n.isFinite
  | .jump label => label.toList ≠ [] ∧ IsTidy label.toList
  | .finish => True
  | _ => False

def IsWritableHeader : Header → Prop
  | .label name => IsTidy name.toList ∧ ':' ∉ name.toList
  | .ifBranch condition => IsTidy condition.toList ∧ condition.toList.getLast? ≠ some ':'
  | .elifBranch condition => IsTidy condition.toList ∧ condition.toList.getLast? ≠ some ':'
  | .menu => True
  | .elseBranch => True
  | .choice _ => False

def IsWritable : Statement → Prop
  | .ignored => False
  | .simple command => IsWritableCommand command
  | .header opened => IsWritableHeader opened
  | .prompt content => '\r' ∉ content.toList

end Statement

/-- A statement at a level of nesting. -/
structure Written where
  level : Nat
  statement : Statement

def Written.line (written : Written) : List Char :=
  List.replicate (4 * written.level) ' ' ++ written.statement.text

end Script

namespace Command

open Script

mutual

def written (level : Nat) : Command → List Written
  | .label name body => ⟨level, .header (.label name)⟩ :: writtenOf (level + 1) body
  | .menu choices => ⟨level, .header .menu⟩ :: writtenOfChoices (level + 1) choices
  | .strayChoice ⟨prompt, _⟩ => [⟨level, .header (.choice prompt)⟩]
  | .ifBranch condition body =>
    ⟨level, .header (.ifBranch condition)⟩ :: writtenOf (level + 1) body
  | .elifBranch condition body =>
    ⟨level, .header (.elifBranch condition)⟩ :: writtenOf (level + 1) body
  | .elseBranch body => ⟨level, .header .elseBranch⟩ :: writtenOf (level + 1) body
  | command => [⟨level, .simple command⟩]

def writtenOf (level : Nat) : List Command → List Written
  | [] => []
  | command :: commands => command.written level ++ writtenOf level commands

def writtenOfChoices (level : Nat) : List (Choice Command) → List Written
  | [] => []
  | ⟨prompt, body⟩ :: choices =>
    ⟨level, .prompt prompt⟩ :: writtenOf (level + 1) body ++ writtenOfChoices level choices

end

end Command

namespace Script

def write (commands : List Command) : String :=
  .ofList ((Command.writtenOf 0 commands).flatMap fun written => written.line ++ ['\n'])

example : write [.menu [⟨"Say \"go\"", [.jump "end"]⟩]] =
    "menu:\n    \"Say \\\"go\\\"\":\n        jump end\n" :=
  rfl

/-- Commands that can be written: each of their statements can, and no line opens a block. -/
structure Writable (commands : List Command) : Prop where
  statements : ∀ written ∈ Command.writtenOf 0 commands, written.statement.IsWritable
  unquoted : ∀ written ∈ Command.writtenOf 0 commands, ∀ delimiter ∈ delimiters,
    ¬delimiter <:+: written.line

end Script

end StoryScript
