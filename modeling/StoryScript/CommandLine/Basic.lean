import StoryScript.CommandLine.Arguments
import StoryScript.Console
import StoryScript.Document.Event
import StoryScript.Json.Writer
import StoryScript.Source
import StoryScript.Transcript

/-! # The command line

A request is carried out on the content of its file. A file whose name ends in `.json` holds
a command tree, any other holds a script. The response is the text put out, the text about
errors and whether the request succeeded.
-/

namespace StoryScript.CommandLine

structure Response where
  succeeded : Bool
  output : String
  errors : String
deriving DecidableEq, Repr

/-- The last part of a path, between its last two slashes if nothing follows the last. -/
def fileName (path : List Char) : List Char :=
  ((Text.dropEndWhile (· == '/') path).reverse.takeWhile (· != '/')).reverse

/-- What follows the last point of a file name that has something before it. -/
def extension? (path : List Char) : Option (List Char) :=
  match (fileName path).reverse.span (· != '.') with
  | (_, []) => none
  | (_, ['.']) => none
  | (ending, _ :: _) => if fileName path = ['.', '.'] then none else some ending.reverse

def holdsTree (path : String) : Bool :=
  extension? path.toList == some ['j', 's', 'o', 'n']

def indentLines (s : String) : String :=
  .ofList (s.toList.flatMap fun c => if c = '\n' then ['\n', ' ', ' ', ' ', ' '] else [c])

def report (message : String) : String :=
  "Error: " ++ message ++ "\n"

def reportCause (message cause : String) : String :=
  report message ++ "\nCaused by:\n    " ++ indentLines cause ++ "\n"

/-- The report of a file without a script. The cause of a malformed tree is a chain, of which
the first link is shown. -/
def SourceError.report (path : String) : SourceError → String
  | .file error => reportCause ("failed to read " ++ path) error.message
  | .script error => reportCause ("failed to parse " ++ path) error.message
  | .tree =>
    CommandLine.report ("failed to parse " ++ path) ++ "\nCaused by:\n    0: " ++
      SourceError.tree.message

def load (request : Request) (content : Except FileError String) :
    Except SourceError (List Command) :=
  match content with
  | .error error => .error (.file error)
  | .ok text =>
    if holdsTree request.path then Script.ofDocument text
    else Script.ofText (.ofNat request.tabWidth) text

def printed (document : Json) : String :=
  document.indented ++ "\n"

def consoleResponse (stepLimit : Nat) : Bool × Console.Screen → Response
  | (false, screen) => ⟨true, screen.output, screen.complaints⟩
  | (true, screen) =>
    ⟨false, screen.output, screen.complaints ++
      report ("no input requested after " ++ toString stepLimit ++ " steps")⟩

/-- The response of an action on a script, given the lines of the input; `none` if `turns`
advances of the play do not suffice. -/
def perform? (turns : Nat) (lines : List String) (script : List Command) :
    Action → Option Response
  | .parse => some ⟨true, printed (scriptToJson script), ""⟩
  | .run choices true stepLimit =>
    (record? turns script choices stepLimit).map fun (events, _) =>
      ⟨true, printed (.array (events.map (·.toJson))), ""⟩
  | .run choices false stepLimit =>
    (Console.run? turns script stepLimit choices lines).map (consoleResponse stepLimit)

/-- The response of a request, given the content of its file and the lines of the input. -/
def carryOut? (turns : Nat) (request : Request) (content : Except FileError String)
    (lines : List String) : Option Response :=
  match load request content with
  | .error error => some ⟨false, "", SourceError.report request.path error⟩
  | .ok script => perform? turns lines script request.action

end StoryScript.CommandLine
