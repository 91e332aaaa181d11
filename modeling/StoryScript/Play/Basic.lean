import StoryScript.Play.Execution

/-! # Plays

A play is a script that is being walked, together with its store. It proceeds by steps, each
of which executes one command and the commands that this leads into, and stops where input is
needed. The log holds the cues given so far.
-/

namespace StoryScript

structure Play where
  script : List Command
  /-- How many steps an advance may take, and how often a step may descend. -/
  stepLimit : Nat
  /-- The lists of commands being walked, the innermost first. -/
  frames : List Frame
  store : Store
  /-- The cues given so far, the last one first. -/
  log : List Cue
deriving Repr

inductive Status where
  | continues
  | done
deriving DecidableEq, Repr

namespace Play

def defaultStepLimit : Nat := 10000

def start (script : List Command) (stepLimit : Nat) : Play :=
  ⟨script, stepLimit, [.start script], ∅, []⟩

def isWaiting (play : Play) : Bool :=
  play.frames.any (·.waiting)

def awaitsChoice (play : Play) : Bool :=
  match play.frames with
  | [] => false
  | frame :: _ =>
    frame.waiting &&
      match frame.current? with
      | some (.menu _) => true
      | _ => false

def isFinished (play : Play) : Bool :=
  play.frames.isEmpty

def status (play : Play) : Status :=
  if play.isFinished then .done else .continues

/-- The play at the start of its script with an empty store. The log is kept. -/
def restart (play : Play) : Play :=
  { play with frames := [.start play.script], store := ∅ }

def assign (play : Play) (assignment : Assignment) : Play :=
  { play with store := play.store.assign assignment, log := .assign assignment :: play.log }

def settle (play : Play) : Play :=
  { play with frames := Frame.settle play.frames }

/-- The play after one step. Input is dropped if the play does not wait for any. -/
def step (play : Play) (input : Option Input) : Play :=
  let play := play.settle
  let input := if play.isWaiting then input else none
  let outcome := Execution.chain play.store (max play.stepLimit 1) input play.frames
  { play with
    frames := Frame.settle outcome.frames
    store := outcome.store
    log := outcome.cues.reverse ++ play.log }

/-- The play after steps until it waits or is over, at most as many as given. The input goes
to the first step. -/
def advanceWithin : Nat → Play → Option Input → Play × Status
  | 0, play, _ => (play, .continues)
  | steps + 1, play, input =>
    let play := play.step input
    if play.isFinished || play.isWaiting then (play, play.status)
    else advanceWithin steps play none

/-- The play after steps until it waits or is over or the limit is reached. -/
def advance (play : Play) (input : Option Input) : Play × Status :=
  advanceWithin play.stepLimit play input

/-- The cues given so far in their order, and the play without them. -/
def takeCues (play : Play) : List Cue × Play :=
  (play.log.reverse, { play with log := [] })

end Play

end StoryScript
