import Mathlib.Data.List.Forall2
import StoryScript.Proofs.Beat.Basic

/-! # Trying the members of a chain

When a frame comes to a branch there are three things that can happen. The branch is refused if its
condition does not hold, it is entered if its condition holds, and it is skipped, whatever its
condition, if the frame's mark says that its chain has been entered before.
-/

namespace StoryScript

variable {outer : List Frame} {play : Play}

namespace Chain

/-- The current command is a branch whose condition does not hold. The frame moves past it. -/
def Refuses (outer : List Frame) (command : Command) (moment : Play) : Prop :=
  ∃ frame, moment.frames = frame :: outer ∧ frame.current? = some command ∧
    command.openBody? moment.store = none ∧
    ∀ input, moment.after (.execute input) = { moment with frames := frame.endChain.next :: outer }

def Enters (outer : List Frame) (command : Command) (moment : Play) : Prop :=
  ∃ frame body, moment.frames = frame :: outer ∧ frame.current? = some command ∧
    command.openBody? moment.store = some body ∧
    ∀ input, moment.after (.execute input) =
      { moment with frames := .start body :: frame.takeBranch :: outer }

/-- The current command is a branch that is passed whatever the store holds, so its condition plays
no part. -/
def Skips (outer : List Frame) (command : Command) (moment : Play) : Prop :=
  ∃ frame, moment.frames = frame :: outer ∧ frame.current? = some command ∧
    ∀ store input, ({ moment with store := store } : Play).after (.execute input) =
      { moment with store := store, frames := frame.next :: outer }

/-- Branches are executed one after another, each at its moment: they are refused until one is
entered, and the ones after it are skipped. -/
inductive Tries (outer : List Frame) : List Command → List Play → Bool → Prop
  | none : Tries outer [] [] false
  | refused {command moment commands moments taken} : Refuses outer command moment →
      Tries outer commands moments taken →
      Tries outer (command :: commands) (moment :: moments) taken
  | entered {command moment commands moments} : Enters outer command moment →
      List.Forall₂ (Skips outer) commands moments →
      Tries outer (command :: commands) (moment :: moments) true

namespace Tries

variable {command : Command} {moment : Play} {commands more : List Command}
  {moments later : List Play} {taken : Bool}

theorem append (h : Tries outer commands moments false) (h' : Tries outer more later taken) :
    Tries outer (commands ++ more) (moments ++ later) taken := by
  generalize hfalse : false = earlier at h
  induction h with
  | none => exact h'
  | refused hr _ ih => exact .refused hr (ih hfalse)
  | entered => cases hfalse

theorem skip (h : Tries outer commands moments true) (hs : Skips outer command moment) :
    Tries outer (commands ++ [command]) (moments ++ [moment]) true := by
  generalize htrue : true = taken at h
  induction h with
  | none => cases htrue
  | refused hr _ ih =>
    subst htrue
    exact .refused hr (ih rfl)
  | entered he hskips => exact .entered he (List.rel_append hskips (.cons hs .nil))

end Tries

end Chain

namespace Execution

variable {store : Store} {input : Option Input} {frame : Frame} {execution : Execution}

theorem Executes.branch_cases (h : Executes store input frame outer execution) {command : Command}
    (hc : frame.current? = some command) (hb : command.isBranch = true) :
    (command.continuesChain = true ∧ frame.branchTaken = true ∧
        execution = next frame outer store []) ∨
      (command.continuesChain = true → frame.branchTaken = false) ∧
        ((∃ body, command.openBody? store = some body ∧
            execution = enter frame.takeBranch outer body) ∨
          command.openBody? store = none ∧ execution = next frame.endChain outer store []) := by
  have hsame {other : Command} (ho : frame.current? = some other) : other = command :=
    Option.some.inj (ho.symm.trans hc)
  have hnot {other : Command} (ho : frame.current? = some other) (hn : other.isBranch = false) :
      False := by
    rw [hsame ho, hb] at hn
    cases hn
  cases h with
  | skipped ho hk ht =>
    obtain rfl := hsame ho
    exact .inl ⟨hk, ht, rfl⟩
  | opened ho hbody hk =>
    obtain rfl := hsame ho
    exact .inr ⟨hk, .inl ⟨_, hbody, rfl⟩⟩
  | failed ho _ hbody hk =>
    obtain rfl := hsame ho
    exact .inr ⟨hk, .inr ⟨hbody, rfl⟩⟩
  | atEnd ho => cases hc.symm.trans ho
  | plain ho hp =>
    refine (hnot ho ?_).elim
    rename_i other
    cases other <;> simp_all [Command.isPlain, Command.isBranch]
  | label ho => exact (hnot ho rfl).elim
  | shown ho => exact (hnot ho rfl).elim
  | dismissed ho => exact (hnot ho rfl).elim
  | kept ho => exact (hnot ho rfl).elim
  | emptyMenu ho => exact (hnot ho rfl).elim
  | offered ho => exact (hnot ho rfl).elim
  | chosen ho => exact (hnot ho rfl).elim
  | declined ho => exact (hnot ho rfl).elim
  | jumped ho => exact (hnot ho rfl).elim
  | strayJump ho => exact (hnot ho rfl).elim
  | finished ho => exact (hnot ho rfl).elim

theorem ofFrames_eq_next_of_branchTaken {command : Command} (hc : frame.current? = some command)
    (hk : command.continuesChain = true) (ht : frame.branchTaken = true) :
    ofFrames store input (frame :: outer) = next frame outer store [] := by
  obtain ⟨-, -, he⟩ | ⟨hfalse, -⟩ := (@executes_ofFrames store input frame outer).branch_cases hc
    (Command.isBranch_of_continuesChain hk)
  · exact he
  · rw [hfalse hk] at ht
    cases ht

end Execution

namespace Play

variable {frame : Frame} {command : Command}

theorem after_execute_next {input : Option Input}
    (h : Execution.ofFrames play.store input play.frames =
      Execution.next frame outer play.store []) :
    play.after (.execute input) = { play with frames := frame.next :: outer } := by
  rw [after, h]
  rfl

theorem after_execute_enter {input : Option Input} {body : List Command}
    (h : Execution.ofFrames play.store input play.frames = Execution.enter frame outer body) :
    play.after (.execute input) = { play with frames := .start body :: frame :: outer } := by
  rw [after, h]
  rfl

theorem skips (hf : play.frames = frame :: outer) (hc : frame.current? = some command)
    (hk : command.continuesChain = true) (ht : frame.branchTaken = true) :
    Chain.Skips outer command play := by
  refine ⟨frame, hf, hc, fun store input => ?_⟩
  refine @after_execute_next outer { play with store := store } frame input ?_
  rw [hf]
  exact Execution.ofFrames_eq_next_of_branchTaken hc hk ht

/-- A branch is tried unless it goes on with a chain of which a member has been entered. -/
theorem enters_or_refuses (hf : play.frames = frame :: outer)
    (hc : frame.current? = some command) (hb : command.isBranch = true)
    (hk : command.continuesChain = true → frame.branchTaken = false) :
    Chain.Enters outer command play ∨ Chain.Refuses outer command play := by
  have hcases (input : Option Input) :=
    (@Execution.executes_ofFrames play.store input frame outer).branch_cases hc hb
  have htried (input : Option Input) := (hcases input).resolve_left fun ⟨hcont, ht, _⟩ => by
    rw [hk hcont] at ht
    cases ht
  cases hbody : command.openBody? play.store with
  | none =>
    refine .inr ⟨frame, hf, hc, hbody, fun input => after_execute_next ?_⟩
    obtain ⟨-, ⟨body, hsome, -⟩ | ⟨-, he⟩⟩ := htried input
    · simp [hbody] at hsome
    · rw [hf, he]
  | some body =>
    refine .inl ⟨frame, body, hf, hc, hbody, fun input => after_execute_enter ?_⟩
    obtain ⟨-, ⟨other, hsome, he⟩ | ⟨hnone, -⟩⟩ := htried input
    · rw [hbody, Option.some.injEq] at hsome
      rw [hf, he, hsome]
    · simp [hbody] at hnone

end Play

end StoryScript
