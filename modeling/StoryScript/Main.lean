import StoryScript.CommandLine.Basic

/-! # The program

The program reads the file of its request, prints the response and sets the exit code. A play
on the console reads its input line by line.
-/

namespace StoryScript.Program

open CommandLine

def turns : Nat := 2 ^ 62

/-- The error of a file that could not be opened or read. Its code may come negated. -/
def fileError (error : IO.Error) : FileError :=
  match error with
  | .noFileOrDirectory _ code _ | .inappropriateType _ code _ | .invalidArgument _ code _
  | .permissionDenied _ code _ => .ofCode (min code (-code)).toNat
  | _ => .missing

def readFile (path : String) : IO (Except FileError String) := do
  try
    return decodeText (← IO.FS.readBinFile path)
  catch error =>
    return .error (fileError error)

def display (screen : Console.Screen) : IO Unit := do
  IO.print screen.output
  (← IO.getStdout).flush
  IO.eprint screen.complaints

/-- Feeds a session from standard input until it ends, and says whether it got stuck. -/
partial def converse : Console.Progress → IO Bool
  | .ended => return false
  | .stuck => return true
  | .wants session demand => do
    let line ← (← IO.getStdin).getLine
    if line.isEmpty then return false
    match Console.answer turns session demand line with
    | none => return true
    | some (progress, screen) =>
      display screen
      converse progress

def finish (response : Response) : IO UInt32 := do
  display ⟨response.output, response.errors⟩
  return if response.succeeded then 0 else 1

def play (script : List Command) (stepLimit : Nat) (choices : List Nat) : IO UInt32 := do
  match Console.proceed turns (.start script stepLimit choices) none [] with
  | none => return 1
  | some (progress, shown) =>
    display ⟨Console.assemble shown, ""⟩
    let stuck ← converse progress
    finish (consoleResponse stepLimit (stuck, ⟨"", ""⟩))

def carryOut (request : Request) : IO UInt32 := do
  let content ← readFile request.path
  match load request content, request.action with
  | .ok script, .run choices false stepLimit => play script stepLimit choices
  | _, _ =>
    match carryOut? turns request content [] with
    | some response => finish response
    | none => return 1

end StoryScript.Program

/-- The exit code is 2 for arguments that make no request and 1 for a request that fails. -/
def main (arguments : List String) : IO UInt32 :=
  match StoryScript.CommandLine.read? arguments with
  | some request => StoryScript.Program.carryOut request
  | none => return 2
