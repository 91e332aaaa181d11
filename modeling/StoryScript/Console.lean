import StoryScript.Play.Basic
import StoryScript.Text.Lines

/-! # The console

A console shows a play as lines of text and reads answers line by line. Choices given
beforehand are used up first, and if there are any, lines of speech are not paused on. A
choice is the number shown before it, counted from one.
-/

namespace StoryScript.Console

def clause (keyword : String) : Option String → String
  | some value => " " ++ keyword ++ " " ++ value
  | none => ""

def seconds (keyword : String) (value : Option Number) : String :=
  clause keyword (value.map fun n => .ofList n.text ++ "s")

def direction (text : String) : String :=
  "[" ++ text ++ "]\n"

def numbered : Nat → List String → String
  | _, [] => ""
  | n, prompt :: prompts =>
    "  " ++ toString n ++ ". " ++ prompt ++ "\n" ++ numbered (n + 1) prompts

def render : Cue → String
  | .speech (some speaker) text => speaker.name ++ ": " ++ text ++ "\n"
  | .speech none text => text ++ "\n"
  | .scene image transition => direction ("scene " ++ image ++ clause "with" transition)
  | .showImage image position transition =>
    direction ("show " ++ image ++ clause "at" position ++ clause "with" transition)
  | .hideImage image transition => direction ("hide " ++ image ++ clause "with" transition)
  | .playMusic file fadeIn => direction ("music " ++ file ++ seconds "fade in" fadeIn)
  | .stopMusic fadeOut => direction ("music stops" ++ seconds "fade out" fadeOut)
  | .pause none => direction "pause"
  | .pause (some n) => direction ("pause " ++ .ofList n.text ++ "s")
  | .choices prompts => numbered 1 prompts
  | .assign _ => ""

def prompt : String := "> "

def complaint : String := "Enter the number of a choice.\n"

structure Session where
  play : Play
  /-- The choices given beforehand that are left. -/
  scripted : List Nat
  /-- Whether lines of speech are passed without a pause. -/
  unattended : Bool
deriving Repr

inductive Demand where
  | proceed
  | choice
deriving DecidableEq, Repr

inductive Progress where
  | wants (session : Session) (demand : Demand)
  | ended
  /-- The play neither waits nor ends within the step limit. -/
  | stuck
deriving Repr

def Session.start (script : List Command) (stepLimit : Nat) (choices : List Nat) : Session :=
  ⟨.start script stepLimit, choices, !choices.isEmpty⟩

/-- The play advanced, with the text shown added to the texts before it, which are in
reverse order. -/
def advance (play : Play) (input : Option Input) (shown : List String) :
    Play × Status × List String :=
  let (play, status) := play.advance input
  let (cues, play) := play.takeCues
  (play, status, (cues.map render).reverse ++ shown)

/-- The session until it needs a line of input or ends, and the texts shown. At most `turns`
advances are made; `none` if they do not suffice. -/
def proceed : Nat → Session → Option Input → List String → Option (Progress × List String)
  | 0, _, _, _ => none
  | turns + 1, session, input, shown =>
    let (play, status, shown) := advance session.play input shown
    let session := { session with play := play }
    if status = .done then some (.ended, shown)
    else if play.awaitsChoice then
      match session.scripted with
      | index :: scripted =>
        proceed turns { session with scripted := scripted } (some (.choose index)) shown
      | [] => some (.wants session .choice, prompt :: shown)
    else if play.isWaiting then
      if session.unattended then proceed turns session (some .proceed) shown
      else some (.wants session .proceed, shown)
    else some (.stuck, shown)

/-- The choice that a line names: a number from one on, with an optional plus sign. -/
def readChoice? (line : String) : Option Nat :=
  let text := Text.trim line.toList
  let digits :=
    match text with
    | '+' :: digits => digits
    | digits => digits
  if digits.isEmpty || !digits.all Char.isDigit then none
  else
    let n := Numeral.value digits
    if 0 < n ∧ n < 2 ^ 64 then some (n - 1) else none

structure Screen where
  output : String
  complaints : String
deriving DecidableEq, Repr

def Screen.add (screen : Screen) (output complaints : String) : Screen :=
  ⟨screen.output ++ output, screen.complaints ++ complaints⟩

def assemble (shown : List String) : String :=
  .join shown.reverse

/-- The session after a line of input that it wanted, what it shows and what it complains
about. -/
def answer (turns : Nat) (session : Session) (demand : Demand) (line : String) :
    Option (Progress × Screen) :=
  match demand with
  | .proceed =>
    (proceed turns session (some .proceed) []).map fun (progress, shown) =>
      (progress, ⟨assemble shown, ""⟩)
  | .choice =>
    match readChoice? line with
    | some index =>
      (proceed turns session (some (.choose index)) []).map fun (progress, shown) =>
        (progress, ⟨assemble shown, ""⟩)
    | none => some (.wants session .choice, ⟨prompt, complaint⟩)

/-- The lines of a text from standard input. A line end at the end of the text begins no
further line. -/
def inputLines (input : String) : List String :=
  let lines := input.toList.splitOn '\n'
  let lines := if lines.getLast? = some [] then lines.dropLast else lines
  lines.map .ofList

/-- A session given all lines of its input. At the end of the input it ends. The result says
whether the session got stuck. -/
def feed (turns : Nat) : Progress → Screen → List String → Option (Bool × Screen)
  | .ended, screen, _ => some (false, screen)
  | .stuck, screen, _ => some (true, screen)
  | .wants _ _, screen, [] => some (false, screen)
  | .wants session demand, screen, line :: lines =>
    match answer turns session demand line with
    | none => none
    | some (progress, more) => feed turns progress (screen.add more.output more.complaints) lines

/-- A session from the start of a script, given all lines of its input. -/
def run? (turns : Nat) (script : List Command) (stepLimit : Nat) (choices : List Nat)
    (lines : List String) : Option (Bool × Screen) :=
  match proceed turns (.start script stepLimit choices) none [] with
  | none => none
  | some (progress, shown) => feed turns progress ⟨assemble shown, ""⟩ lines

end StoryScript.Console
