import StoryScript.Proofs.Recording
import StoryScript.Proofs.Waiting.Basic
import StoryScript.Proofs.Within

/-! # Where cues come from

The frames of a play walk commands inside its script, so every cue that a recording has in its log
is one that a command inside the script gives, by acting or by asking for input.
-/

namespace StoryScript

/-- Whether a command gives a cue in some store: it acts by it, or it asks for input. -/
def Command.Gives (command : Command) (cue : Cue) : Prop :=
  ∃ store, cue ∈ (command.act store).2 ∨ command.question? store = some cue

/-- Whether a cue is given by a command inside a script. -/
def Cue.StemsFrom (cue : Cue) (script : List Command) : Prop :=
  ∃ command, Within script command ∧ command.Gives cue

variable {script : List Command} {frame : Frame} {outer frames : List Frame} {command : Command}
  {store : Store} {input : Option Input} {cue : Cue}

theorem Command.mem_inner_of_mem_bodies {body : List Command} {inside : Command}
    (h : body ∈ command.bodies) (hinside : inside ∈ body) : inside ∈ command.inner := by
  cases command with
  | menu choices =>
    obtain ⟨choice, hchoice, rfl⟩ := List.mem_map.1 h
    exact List.mem_flatMap_of_mem hchoice hinside
  | label _ commands | ifBranch _ commands | elifBranch _ commands | elseBranch commands =>
    obtain rfl := List.mem_singleton.1 h
    exact hinside
  | _ => cases h

theorem Enclosed.within {commands : List Command} (h : Enclosed script commands outer) :
    ∀ command ∈ commands, Within script command := by
  induction h with
  | whole =>
    intro command hcommand
    exact .here hcommand
  | body hsuffix _ hcurrent hbody _ ih =>
    intro command hcommand
    apply Within.inside (ih _ (Frame.mem_of_current? hsuffix hcurrent))
    exact Command.mem_inner_of_mem_bodies hbody hcommand

theorem Stack.within (h : Stack script (frame :: outer))
    (hcurrent : frame.current? = some command) : Within script command := by
  obtain _ | ⟨hsuffix, -, henclosed⟩ := h
  exact henclosed.within command (Frame.mem_of_current? hsuffix hcurrent)

namespace Execution

theorem Executes.gives {execution : Execution} (h : Executes store input frame outer execution)
    (hcue : cue ∈ execution.cues) :
    ∃ command, frame.current? = some command ∧ command.Gives cue := by
  cases h with
  | plain hcurrent => exact ⟨_, hcurrent, store, .inl hcue⟩
  | shown hcurrent =>
    obtain rfl := List.mem_singleton.1 hcue
    exact ⟨_, hcurrent, store, .inr rfl⟩
  | offered hcurrent =>
    obtain rfl := List.mem_singleton.1 hcue
    exact ⟨_, hcurrent, store, .inr rfl⟩
  | _ => cases hcue

theorem stemsFrom_ofFrames (hs : Stack script frames)
    (hcue : cue ∈ (ofFrames store input frames).cues) : cue.StemsFrom script := by
  cases frames with
  | nil => cases hcue
  | cons frame outer =>
    obtain ⟨command, hcurrent, hgives⟩ := executes_ofFrames.gives hcue
    exact ⟨command, hs.within hcurrent, hgives⟩

theorem stemsFrom_chain (fuel : Nat) (hs : Stack script frames)
    (hcue : cue ∈ (chain store fuel input frames).cues) : cue.StemsFrom script := by
  induction fuel generalizing input frames with
  | zero => cases hcue
  | succ fuel ih =>
    -- The command descends to frames that are nested in the script again, or it gives its cues.
    have hstack : Stack script (ofFrames store input frames).frames := stack_ofFrames hs
    have hstems : cue ∈ (ofFrames store input frames).cues → cue.StemsFrom script :=
      stemsFrom_ofFrames hs
    rw [chain] at hcue
    cases hexecution : ofFrames store input frames with
    | descend found =>
      rw [hexecution] at hstack hcue
      exact ih hstack hcue
    | stop outcome =>
      rw [hexecution] at hstems hcue
      exact hstems hcue

end Execution

namespace Play

variable {play : Play}

structure Tells (script : List Command) (play : Play) : Prop where
  nested : play.Nested
  script_eq : play.script = script
  log : ∀ cue ∈ play.log, cue.StemsFrom script

theorem tells_start (script : List Command) (stepLimit : Nat) :
    (start script stepLimit).Tells script where
  nested := nested_start script stepLimit
  script_eq := rfl
  log := nofun

theorem Tells.step (h : play.Tells script) (input : Option Input) :
    (play.step input).Tells script where
  nested := h.nested.step input
  script_eq := h.script_eq
  log := by
    intro cue hcue
    have hstack : Stack script (Frame.settle play.frames) := h.script_eq ▸ Stack.settle h.nested
    -- The log has the cues of the step before the earlier ones.
    rcases List.mem_append.1 hcue with hcue | hcue
    · exact Execution.stemsFrom_chain _ hstack (List.mem_reverse.1 hcue)
    · exact h.log cue hcue

theorem Tells.advance (h : play.Tells script) (input : Option Input) :
    (play.advance input).1.Tells script :=
  advanceWithin_induction (fun _ input h => h.step input) play.stepLimit play input h

end Play

theorem exists_cue_of_record? {turns stepLimit : Nat} {choices : List Nat} {events : List Event}
    {ending : Ending} (h : record? turns script choices stepLimit = some (events, ending)) :
    ∀ event ∈ events, ∃ cue : Cue, cue.StemsFrom script ∧ event = .ofCue cue := by
  obtain ⟨⟨final, reached⟩, hrecord, hevents⟩ := Option.map_eq_some_iff.1 h
  cases hevents
  have hstart := (Play.tells_start script stepLimit).advance none
  have hfinal : final.Tells script :=
    (Play.records_of_recordWithin hrecord).induction (fun _ input h => h.advance input) hstart
  intro event hevent
  obtain ⟨cue, hcue, rfl⟩ := List.mem_map.1 hevent
  exact ⟨cue, hfinal.log cue (List.mem_reverse.1 hcue), rfl⟩

end StoryScript
