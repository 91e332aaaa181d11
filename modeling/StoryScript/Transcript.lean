import StoryScript.Event
import StoryScript.Play.Basic

/-! # Transcripts

A script is recorded by playing it without a presentation: every line is read at once, and
menus are answered by a list of choices. The recording ends when the play is over, when a
menu finds no choice left, or when the step limit cuts the play short.
-/

namespace StoryScript

/-- Why a recording ends. -/
inductive Ending where
  | finished
  | choicesUsedUp
  | cutShort
deriving DecidableEq, Repr

namespace Play

def events (play : Play) : List Event :=
  play.log.reverse.map .ofCue

/-- The play after it has been advanced with the choices given, and why it ends. At most
`turns` advances are made; `none` if they do not suffice. -/
def recordWithin : Nat → Play → List Nat → Option Input → Option (Play × Ending)
  | 0, _, _, _ => none
  | turns + 1, play, choices, input =>
    match play.advance input with
    | (play, .done) => some (play, .finished)
    | (play, .continues) =>
      if play.awaitsChoice then
        match choices with
        | [] => some (play, .choicesUsedUp)
        | index :: choices => recordWithin turns play choices (some (.choose index))
      else if play.isWaiting then recordWithin turns play choices (some .proceed)
      else some (play, .cutShort)

end Play

/-- The transcript of a script and why it ends, if at most `turns` advances suffice. -/
def record? (turns : Nat) (script : List Command) (choices : List Nat) (stepLimit : Nat) :
    Option (List Event × Ending) :=
  ((Play.start script stepLimit).recordWithin turns choices none).map fun (play, ending) =>
    (play.events, ending)

end StoryScript
