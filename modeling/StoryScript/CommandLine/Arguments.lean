import StoryScript.Play.Basic
import StoryScript.Script.Reader

/-! # Arguments

A request to the command line is the word `parse` or `run`, a file and options. An option
begins with two hyphens and stands before or after the file. Its value is the next argument,
or follows an equals sign. Every option may be given once, except that lists of choices are
joined. After an argument of two hyphens alone there are no more options.
-/

namespace StoryScript.CommandLine

inductive Action where
  /-- Its command tree is printed. -/
  | parse
  /-- It is played on the console, or its transcript is printed. -/
  | run (choices : List Nat) (transcript : Bool) (stepLimit : Nat)
deriving DecidableEq, Repr

structure Request where
  path : String
  tabWidth : Nat
  action : Action
deriving DecidableEq, Repr

inductive Mode where
  | parse
  | run
deriving DecidableEq, Repr

structure Given where
  path : Option String
  tabWidth : Option Nat
  choices : List Nat
  transcript : Bool
  stepLimit : Option Nat
deriving DecidableEq, Repr

inductive Flag where
  | tabWidth
  | choices
  | transcript
  | stepLimit
deriving DecidableEq, Repr

/-- The option with a name, as far as the kind of request has it. -/
def flag? (mode : Mode) (name : String) : Option Flag :=
  match mode, name with
  | _, "tab-width" => some .tabWidth
  | .run, "choices" => some .choices
  | .run, "transcript" => some .transcript
  | .run, "step-limit" => some .stepLimit
  | _, _ => none

/-- A natural number of at most 64 bits, with an optional plus sign. -/
def readNat? (s : List Char) : Option Nat :=
  let digits :=
    match s with
    | '+' :: digits => digits
    | digits => digits
  if digits.isEmpty || !digits.all Char.isDigit then none
  else
    let n := Numeral.value digits
    if n < 2 ^ 64 then some n else none

def readNats? (s : List Char) : Option (List Nat) :=
  (s.splitOn ',').mapM readNat?

namespace Given

def nothing : Given := ⟨none, none, [], false, none⟩

/-- The value of an option added; `none` if it is no value of that option or the option has
been given before. -/
def setFlag? (given : Given) (flag : Flag) (value : List Char) : Option Given :=
  match flag with
  | .tabWidth =>
    if given.tabWidth.isSome then none
    else (readNat? value).map fun n => { given with tabWidth := some n }
  | .choices =>
    (readNats? value).map fun choices => { given with choices := given.choices ++ choices }
  | .transcript => none
  | .stepLimit =>
    if given.stepLimit.isSome then none
    else (readNat? value).map fun n => { given with stepLimit := some n }

/-- The switch for transcripts added, unless it has been given before. -/
def setTranscript? (given : Given) : Option Given :=
  if given.transcript then none else some { given with transcript := true }

/-- The file added, unless it is empty or another has been given. -/
def setPath? (given : Given) (path : String) : Option Given :=
  if given.path.isSome || path.isEmpty then none else some { given with path := some path }

/-- The request that has been given. Only the file has to be there. -/
def toRequest? (given : Given) (mode : Mode) : Option Request :=
  given.path.map fun path =>
    ⟨path, given.tabWidth.getD Script.defaultTabWidth.toNat,
      match mode with
      | .parse => .parse
      | .run =>
        .run given.choices given.transcript (given.stepLimit.getD Play.defaultStepLimit)⟩

end Given

/-- Whether an argument looks like an option. A single hyphen is a file. -/
def isOption (s : List Char) : Bool :=
  match s with
  | '-' :: _ :: _ => true
  | _ => false

def readOptions? (mode : Mode) : Given → List String → Option Given
  | given, [] => some given
  | given, "--" :: paths => paths.foldlM Given.setPath? given
  | given, argument :: arguments =>
    match argument.toList with
    | '-' :: '-' :: name =>
      match name.span (· != '=') with
      | (name, '=' :: value) =>
        ((flag? mode (.ofList name)).bind (given.setFlag? · value)).bind
          (readOptions? mode · arguments)
      | (name, _) =>
        match flag? mode (.ofList name), arguments with
        | none, _ => none
        | some .transcript, arguments => given.setTranscript?.bind (readOptions? mode · arguments)
        | some _, [] => none
        | some flag, value :: arguments =>
          if isOption value.toList then none
          else (given.setFlag? flag value.toList).bind (readOptions? mode · arguments)
    | s =>
      if isOption s then none
      else (given.setPath? argument).bind (readOptions? mode · arguments)

def read? : List String → Option Request
  | "parse" :: arguments => (readOptions? .parse .nothing arguments).bind (·.toRequest? .parse)
  | "run" :: arguments => (readOptions? .run .nothing arguments).bind (·.toRequest? .run)
  | _ => none

end StoryScript.CommandLine
