import Mathlib.Computability.StateTransition
import StoryScript.Proofs.Beat.Basic

/-! # Every step comes to an end

A step is three loops one after another: frames at their end are left, commands are executed as long
as this leads into further ones, and frames at their end are left again. The loops know nothing of
how long they may go on, except that the second one counts how often it has descended. Whatever
the frames of the play are, they come to an end, and where they end is the step of the play.
-/

namespace StoryScript

/-- How far a step has got. -/
inductive Stage where
  /-- Frames at their end are left. -/
  | opening (input : Option Input) (play : Play)
  /-- The current command is executed, after a number of descents. -/
  | executing (descents : Nat) (input : Option Input) (play : Play)
  /-- Frames at their end are left once more. -/
  | closing (play : Play)

namespace Stage

def next? : Stage → Option Stage
  | opening input play =>
    match Frame.leave? play.frames with
    | some _ => some (opening input (play.after .leave))
    | none => some (executing 0 (if play.isWaiting then input else none) play)
  | executing descents input play =>
    match Execution.ofFrames play.store input play.frames with
    | .descend _ =>
      if play.stepLimit ≤ descents + 1 then some (closing (play.after (.execute input)))
      else some (executing (descents + 1) none (play.after (.execute input)))
    | .stop _ => some (closing (play.after (.execute input)))
  | closing play =>
    match Frame.leave? play.frames with
    | some _ => some (closing (play.after .leave))
    | none => none

open StateTransition

theorem reaches_leaves {stage : Play → Stage}
    (hstage : ∀ play found, Frame.leave? play.frames = some found →
      (stage play).next? = some (stage (play.after .leave))) (play : Play) :
    Reaches next? (stage play) (stage (play.afterAll (Frame.leaves play.frames))) := by
  induction hlength : play.frames.length using Nat.strongRecOn generalizing play with
  | ind length ih =>
    subst hlength
    rw [Frame.leaves_eq]
    cases hl : Frame.leave? play.frames with
    | none => exact .refl
    | some found =>
      have hframes : (play.after .leave).frames = found := by
        rw [Play.after, hl, Option.getD_some]
      have hlater := ih _ (by rw [hframes]; exact Frame.length_lt_of_leave? hl) _ rfl
      rw [hframes] at hlater
      exact hlater.head (hstage play found hl)

/-- The loop that executes commands comes to an end, since it counts its descents. -/
theorem reaches_closing {fuel descents : Nat} (play : Play) (input : Option Input)
    (h : descents + (fuel + 1) = max play.stepLimit 1) :
    Reaches next? (executing descents input play)
      (closing (play.afterAll (Execution.beats play.store (fuel + 1) input play.frames))) := by
  induction fuel generalizing descents play input with
  | zero =>
    -- One more command may be executed, and the loop ends even if it descends.
    have hlimit : play.stepLimit ≤ descents + 1 := by omega
    refine .single ?_
    rw [Execution.beats, next?, Option.mem_def]
    cases Execution.ofFrames play.store input play.frames with
    | descend found => exact if_pos hlimit
    | stop outcome => rfl
  | succ fuel ih =>
    have hlimit : ¬ play.stepLimit ≤ descents + 1 := by omega
    rw [Execution.beats]
    cases he : Execution.ofFrames play.store input play.frames with
    | descend found =>
      have hafter : play.after (.execute input) = { play with frames := found } := by
        rw [Play.after, he]
      have hnext : (executing descents input play).next? =
          some (executing (descents + 1) none { play with frames := found }) := by
        rw [next?, he, hafter]
        exact if_neg hlimit
      have hcount : descents + 1 + (fuel + 1) = max play.stepLimit 1 := by omega
      have hlater := ih { play with frames := found } none hcount
      rw [Play.afterAll_cons, hafter]
      exact hlater.head hnext
    | stop outcome =>
      refine .single ?_
      rw [next?, he]
      rfl

/-- A step comes to an end, and where it ends is the play after the step. -/
theorem eval_opening (play : Play) (input : Option Input) :
    eval next? (opening input play) = Part.some (closing (play.step input)) := by
  have hstay (play : Play) : Frame.leave? play.settle.frames = none := Frame.leave?_settle _
  have hopening := @reaches_leaves (opening input) (fun play found h => by rw [next?, h]) play
  have hfirst : (opening input play.settle).next? =
      some (executing 0 (if play.settle.isWaiting then input else none) play.settle) := by
    rw [next?, hstay]
  obtain ⟨fuel, hfuel⟩ : ∃ fuel, max play.stepLimit 1 = fuel + 1 :=
    Nat.exists_eq_succ_of_ne_zero (by omega)
  have hexecuting := reaches_closing play.settle
    (if play.settle.isWaiting then input else none) ((Nat.zero_add _).trans hfuel.symm)
  have hclosing := @reaches_leaves closing (fun play found h => by rw [next?, h])
    (play.settle.afterAll (Execution.beats play.store (fuel + 1)
      (if play.settle.isWaiting then input else none) play.settle.frames))
  rw [Play.afterAll_leaves] at hopening hclosing
  rw [Play.step_eq, hfuel]
  refine Part.eq_some_iff.2 (mem_eval.2 ⟨?_, ?_⟩)
  · exact hopening.trans (.head hfirst (hexecuting.trans hclosing))
  · rw [next?, hstay]

end Stage

end StoryScript
