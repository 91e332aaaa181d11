import StoryScript.Proofs.Stack
import StoryScript.Transcript

/-! # The log is only written

A play adds to its log and never reads it. Over an earlier log every run takes the same course and
reports the same, and its cues come after the earlier ones. A play that is restarted is one at the
start of its script over the log so far, so a restart forgets everything but the transcript.
-/

namespace StoryScript

/-- What a host learns from an operation: whether the play goes on, if the operation answers
that, whether the play waits then, and for a choice, whether it is over, the events of the
operation and the store. -/
structure Report where
  status : Option Status
  waiting : Bool
  awaitsChoice : Bool
  finished : Bool
  events : List Event
  store : Store
deriving Repr

namespace Play

/-- What an operation answers. -/
def answer (play : Play) : Operation → Option Status
  | .step input => some (play.step input).status
  | .advance input => some (play.advance input).2
  | _ => none

def report (play : Play) (operation : Operation) : Report where
  status := play.answer operation
  waiting := (play.perform operation).isWaiting
  awaitsChoice := (play.perform operation).awaitsChoice
  finished := (play.perform operation).isFinished
  events := (play.perform operation).events.drop play.events.length
  store := (play.perform operation).store

def reports : Play → List Operation → List Report
  | _, [] => []
  | play, operation :: operations =>
    play.report operation :: (play.perform operation).reports operations

/-- The play with an earlier log below its own. -/
def onto (play : Play) (earlier : List Cue) : Play :=
  { play with log := play.log ++ earlier }

variable {play : Play} {earlier : List Cue} {input : Option Input} {operation : Operation}

theorem events_onto : (play.onto earlier).events = earlier.reverse.map .ofCue ++ play.events := by
  simp only [events, onto, List.reverse_append, List.map_append]

theorem step_onto : (play.onto earlier).step input = (play.step input).onto earlier := by
  simp only [step, onto, List.append_assoc]
  rfl

theorem advanceWithin_onto (steps : Nat) :
    (play.onto earlier).advanceWithin steps input =
      ((play.advanceWithin steps input).1.onto earlier, (play.advanceWithin steps input).2) := by
  induction steps generalizing play input with
  | zero => rfl
  | succ steps ih =>
    have hrests (next : Play) : ((next.onto earlier).isFinished || (next.onto earlier).isWaiting) =
        (next.isFinished || next.isWaiting) := rfl
    simp only [advanceWithin, step_onto, hrests]
    split
    · rfl
    · exact ih

theorem advance_onto :
    (play.onto earlier).advance input =
      ((play.advance input).1.onto earlier, (play.advance input).2) :=
  advanceWithin_onto play.stepLimit

theorem perform_onto :
    (play.onto earlier).perform operation = (play.perform operation).onto earlier := by
  cases operation with
  | step input => exact step_onto
  | advance input => exact congrArg Prod.fst advance_onto
  | restart => rfl
  | assign assignment => rfl
  | replaceStore store => rfl

theorem run_onto (operations : List Operation) :
    (play.onto earlier).run operations = (play.run operations).onto earlier := by
  induction operations generalizing play with
  | nil => rfl
  | cons operation operations ih => rw [run_cons, perform_onto, ih, run_cons]

theorem answer_onto : (play.onto earlier).answer operation = play.answer operation := by
  cases operation with
  | step input => exact congrArg (some ·.status) step_onto
  | advance input => exact congrArg (some ·.2) advance_onto
  | _ => rfl

theorem report_onto : (play.onto earlier).report operation = play.report operation := by
  rw [report, answer_onto, perform_onto, events_onto, events_onto, List.length_append,
    List.drop_length_add_append]
  rfl

theorem reports_onto (operations : List Operation) :
    (play.onto earlier).reports operations = play.reports operations := by
  induction operations generalizing play with
  | nil => rfl
  | cons operation operations ih => rw [reports, report_onto, perform_onto, ih, reports]

theorem restart_eq (play : Play) :
    play.restart = (start play.script play.stepLimit).onto play.log :=
  rfl

end Play

/-- A restart forgets everything but the transcript: whatever has been done with a play, after a
restart it reports the same as a play that has just been started, and its state after further
operations differs from that play's by the log so far alone. -/
theorem reports_restart_of_run (script : List Command) (stepLimit : Nat)
    (history operations : List Operation) :
    ((Play.start script stepLimit).run history).restart.reports operations =
        (Play.start script stepLimit).reports operations ∧
      ((Play.start script stepLimit).run history).restart.run operations =
        ((Play.start script stepLimit).run operations).onto
          ((Play.start script stepLimit).run history).log := by
  have hrestart : ((Play.start script stepLimit).run history).restart =
      (Play.start script stepLimit).onto ((Play.start script stepLimit).run history).log := by
    rw [Play.restart_eq, Play.script_run, Play.stepLimit_run]
    rfl
  rw [hrestart]
  exact ⟨Play.reports_onto operations, Play.run_onto operations⟩

end StoryScript
