import StoryScript.Condition.Reader
import StoryScript.Cue
import StoryScript.Play.Frame

/-! # Executing a command

Executing the innermost frame's command either ends the step or descends. A step that ends
leaves frames, a store and cues. A step that descends goes on with the command that is then
current: the first of a body that was entered, or the label that was jumped to.
-/

namespace StoryScript

inductive Input where
  /-- The line on display has been read. -/
  | proceed
  /-- A choice of the menu on display, counted from zero. -/
  | choose (index : Nat)
deriving DecidableEq, Repr

/-- Where a step ends: the frames, the store and the cues given. -/
structure Outcome where
  frames : List Frame
  store : Store
  cues : List Cue
deriving Repr

inductive Execution where
  /-- The step goes on at the command that is current in these frames. -/
  | descend (frames : List Frame)
  | stop (outcome : Outcome)
deriving Repr

namespace Execution

def rest (frames : List Frame) (store : Store) : Execution :=
  .stop ⟨frames, store, []⟩

def next (frame : Frame) (outer : List Frame) (store : Store) (cues : List Cue) : Execution :=
  .stop ⟨frame.next :: outer, store, cues⟩

def enter (frame : Frame) (outer : List Frame) (body : List Command) : Execution :=
  .descend (.start body :: frame :: outer)

def wait (frame : Frame) (outer : List Frame) (store : Store) (cue : Cue) : Execution :=
  .stop ⟨{ frame with waiting := true } :: outer, store, [cue]⟩

/-- A line is shown, and the frame moves on once it has been read. -/
def dialogue (frame : Frame) (outer : List Frame) (store : Store) (input : Option Input)
    (speaker : Option String) (text : String) : Execution :=
  if frame.waiting then
    match input with
    | some _ => next { frame with waiting := false } outer store []
    | none => rest (frame :: outer) store
  else wait frame outer store (.speech (speaker.map store.speaker) text)

/-- The choices of a menu are shown, and one of them is entered once it is chosen. A menu
without choices is passed. -/
def menu (frame : Frame) (outer : List Frame) (store : Store) (input : Option Input)
    (choices : List (Choice Command)) : Execution :=
  if choices.isEmpty then next frame outer store []
  else if frame.waiting then
    match input with
    | some (.choose index) =>
      match choices[index]? with
      | some choice => enter { frame with waiting := false } outer choice.body
      | none => rest (frame :: outer) store
    | _ => rest (frame :: outer) store
  else wait frame outer store (.choices (choices.map (·.prompt)))

def branch (frame : Frame) (outer : List Frame) (store : Store) (condition : String)
    (body : List Command) : Execution :=
  if Condition.evaluate store.get? condition then
    enter { frame with branchTaken := true } outer body
  else next frame outer store []

/-- The frames go to a label. A jump to a label that no frame has is passed. -/
def jump (frame : Frame) (outer : List Frame) (store : Store) (label : String) : Execution :=
  match Frame.jump? label (frame :: outer) with
  | some frames => .descend frames
  | none => next frame outer store []

def define (frame : Frame) (outer : List Frame) (store : Store) (assignment : Option Assignment) :
    Execution :=
  match assignment with
  | some a => next frame outer (store.assign a) [.assign a]
  | none => next frame outer store []

def command (store : Store) (input : Option Input) (frame : Frame) (outer : List Frame) :
    Command → Execution
  | .label _ body => enter frame outer body
  | .scene image transition => next frame outer store [.scene image transition]
  | .dialogue speaker text => dialogue frame outer store input speaker text
  | .menu choices => menu frame outer store input choices
  | .strayChoice _ => next frame outer store []
  | .ifBranch condition body => branch { frame with branchTaken := false } outer store condition body
  | .elifBranch condition body =>
    if frame.branchTaken then next frame outer store []
    else branch frame outer store condition body
  | .elseBranch body =>
    if frame.branchTaken then next frame outer store []
    else enter { frame with branchTaken := true } outer body
  | .define name value definition =>
    define frame outer store (Assignment.ofDefinition? name value definition)
  | .playMusic file fadeIn => next frame outer store [.playMusic file fadeIn]
  | .stopMusic fadeOut => next frame outer store [.stopMusic fadeOut]
  | .showImage image position transition =>
    next frame outer store [.showImage image position transition]
  | .hideImage image transition => next frame outer store [.hideImage image transition]
  | .pause duration => next frame outer store [.pause duration]
  | .jump label => jump frame outer store label
  | .finish => rest [] store
  | .unsupported => next frame outer store []

/-- The execution of the current command. A command outside a chain of branches ends the
chain before it. -/
def ofFrames (store : Store) (input : Option Input) : List Frame → Execution
  | [] => rest [] store
  | frame :: outer =>
    match frame.current? with
    | none => rest (frame :: outer) store
    | some current =>
      let frame := if current.isBranch then frame else { frame with branchTaken := false }
      command store input frame outer current

/-- The outcome of the current command or, if it descends, of those after it. At most `fuel`
commands are executed, and the input goes to the first. -/
def chain (store : Store) : Nat → Option Input → List Frame → Outcome
  | 0, _, frames => ⟨frames, store, []⟩
  | fuel + 1, input, frames =>
    match ofFrames store input frames with
    | .descend frames => chain store fuel none frames
    | .stop outcome => outcome

end Execution

end StoryScript
