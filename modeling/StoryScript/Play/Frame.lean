import StoryScript.Command

/-! # Frames

A play walks several lists of commands at once, the innermost first. A frame is such a list
with the part that is still ahead. While the body of a command is walked, the frame around it
stays at that command.
-/

namespace StoryScript

/-- A list of commands that is being walked. -/
structure Frame where
  commands : List Command
  /-- The commands ahead, the current one first. -/
  ahead : List Command
  /-- Whether the current command waits for input. -/
  waiting : Bool
  /-- Whether a member of the current chain of branches has been entered. -/
  branchTaken : Bool
deriving Repr

namespace Frame

def start (commands : List Command) : Frame :=
  ⟨commands, commands, false, false⟩

def current? (frame : Frame) : Option Command :=
  frame.ahead.head?

def next (frame : Frame) : Frame :=
  { frame with ahead := frame.ahead.tail }

/-- The frame at its first label with the name given, if it has one. -/
def atLabel? (frame : Frame) (name : String) : Option Frame :=
  match frame.commands.dropWhile (!·.isLabel name) with
  | [] => none
  | ahead => some { frame with ahead := ahead, waiting := false }

/-- The frames after a jump: the innermost frame with the label stands at it, and those
inside it are gone. -/
def jump? (name : String) : List Frame → Option (List Frame)
  | [] => none
  | frame :: outer =>
    match frame.atLabel? name with
    | some found => some (found :: outer)
    | none => jump? name outer

/-- The frames after those that are at their end have been left, each time moving the frame
around it past the command whose body it was. A frame that waits is not left, and the end of
the story leaves them all. -/
def settleUnder (frame : Frame) (outer : List Frame) : List Frame :=
  if frame.waiting then frame :: outer
  else
    match frame.ahead with
    | [] =>
      match outer with
      | [] => []
      | parent :: outer => settleUnder parent.next outer
    | .finish :: _ => []
    | _ :: _ => frame :: outer

/-- The frames after those that are at their end have been left. -/
def settle : List Frame → List Frame
  | [] => []
  | frame :: outer => settleUnder frame outer

end Frame

end StoryScript
