import Mathlib.Data.List.Basic
import Mathlib.Tactic.Common
import StoryScript.Proofs.Execution
import StoryScript.Proofs.Operation

/-! # The stack of frames

The frames of a play walk bodies nested in one another: each frame walks a body of the command
at which the frame around it stands, and the outermost one walks the whole script. Only the
innermost frame may wait, and only at a command that needs input. Every execution keeps this,
so the bodies nested in the script bound the number of frames.
-/

namespace StoryScript

namespace Command

mutual

def nesting : Command → Nat
  | .label _ body => nestingOf body + 1
  | .menu choices => nestingOfChoices choices
  | .strayChoice choice => nestingOfChoice choice
  | .ifBranch _ body => nestingOf body + 1
  | .elifBranch _ body => nestingOf body + 1
  | .elseBranch body => nestingOf body + 1
  | _ => 0

def nestingOf : List Command → Nat
  | [] => 0
  | command :: commands => max command.nesting (nestingOf commands)

def nestingOfChoice : Choice Command → Nat
  | ⟨_, body⟩ => nestingOf body + 1

def nestingOfChoices : List (Choice Command) → Nat
  | [] => 0
  | choice :: choices => max (nestingOfChoice choice) (nestingOfChoices choices)

end

theorem nesting_le_nestingOf {command : Command} {commands : List Command}
    (h : command ∈ commands) : command.nesting ≤ nestingOf commands := by
  induction commands with
  | nil => cases h
  | cons first commands ih =>
    simp only [nestingOf]
    rcases List.mem_cons.1 h with rfl | h
    · exact Nat.le_max_left _ _
    · exact Nat.le_trans (ih h) (Nat.le_max_right _ _)

theorem nestingOf_lt_nestingOfChoices {choice : Choice Command} {choices : List (Choice Command)}
    (h : choice ∈ choices) : nestingOf choice.body < nestingOfChoices choices := by
  induction choices with
  | nil => cases h
  | cons first choices ih =>
    simp only [nestingOfChoices]
    rcases List.mem_cons.1 h with rfl | h
    · have hlt : nestingOf choice.body < nestingOfChoice choice := by
        cases choice
        simp [nestingOfChoice]
      exact Nat.lt_of_lt_of_le hlt (Nat.le_max_left _ _)
    · exact Nat.lt_of_lt_of_le (ih h) (Nat.le_max_right _ _)

theorem nestingOf_lt_nesting {command : Command} {body : List Command}
    (h : body ∈ command.bodies) : nestingOf body < command.nesting := by
  cases command <;> simp only [bodies, List.mem_singleton, List.mem_map, List.not_mem_nil] at h
  case menu choices =>
    obtain ⟨choice, hc, rfl⟩ := h
    exact nestingOf_lt_nestingOfChoices hc
  all_goals
    subst h
    exact Nat.lt_succ_self _

end Command

namespace Frame

theorem mem_of_current? {frame : Frame} {command : Command} (hs : frame.ahead <:+ frame.commands)
    (h : frame.current? = some command) : command ∈ frame.commands :=
  hs.mem (List.mem_of_mem_head? h)

theorem ahead_eq_of_current? {frame : Frame} {command : Command}
    (h : frame.current? = some command) : frame.ahead = command :: frame.ahead.tail :=
  List.eq_cons_of_mem_head? h

theorem settleUnder_of_waiting {frame : Frame} {outer : List Frame} (hw : frame.waiting = true) :
    Frame.settleUnder frame outer = frame :: outer := by
  unfold Frame.settleUnder
  rw [if_pos hw]

end Frame

/-- The frames around a list of commands that is walked: each stands at a command of which the
list inside it is a body. -/
inductive Enclosed (script : List Command) : List Command → List Frame → Prop
  | whole : Enclosed script script []
  | body {commands frame outer command} : frame.ahead <:+ frame.commands → frame.waiting = false →
      frame.current? = some command → commands ∈ command.bodies →
      Enclosed script frame.commands outer → Enclosed script commands (frame :: outer)

/-- The frames of a play over a script. -/
inductive Stack (script : List Command) : List Frame → Prop
  | ended : Stack script []
  | walking {frame outer} : frame.ahead <:+ frame.commands →
      (frame.waiting = true → ∃ command, frame.current? = some command ∧ command.waits = true) →
      Enclosed script frame.commands outer → Stack script (frame :: outer)

namespace Stack

variable {script : List Command} {frame : Frame} {outer frames : List Frame}

theorem of_not_waiting (hs : frame.ahead <:+ frame.commands) (hw : frame.waiting = false)
    (he : Enclosed script frame.commands outer) : Stack script (frame :: outer) :=
  .walking hs (fun h => by simp [hw] at h) he

theorem start (script : List Command) : Stack script [.start script] :=
  of_not_waiting (List.suffix_refl _) rfl .whole

theorem next (frame : Frame) (hs : frame.ahead <:+ frame.commands) (hw : frame.waiting = false)
    (he : Enclosed script frame.commands outer) : Stack script (frame.next :: outer) :=
  of_not_waiting ((List.tail_suffix _).trans hs) hw he

theorem enter (frame : Frame) {command : Command} {body : List Command}
    (hs : frame.ahead <:+ frame.commands) (hw : frame.waiting = false)
    (he : Enclosed script frame.commands outer)
    (hc : frame.current? = some command) (hb : body ∈ command.bodies) :
    Stack script (.start body :: frame :: outer) :=
  of_not_waiting (List.suffix_refl _) rfl (.body hs hw hc hb he)

theorem not_waiting_of_current? {command : Command} (h : Stack script (frame :: outer))
    (hc : frame.current? = some command) (hn : command.waits = false) : frame.waiting = false := by
  cases h with
  | walking _ hw _ =>
    by_contra hne
    obtain ⟨other, ho, hwaits⟩ := hw (Bool.of_not_eq_false hne)
    rw [hc] at ho
    cases ho
    simp [hn] at hwaits

theorem atLabel? {name : String} {found : Frame} (h : frame.atLabel? name = some found)
    (he : Enclosed script frame.commands outer) : Stack script (found :: outer) := by
  unfold Frame.atLabel? at h
  split at h
  · cases h
  · cases h
    exact of_not_waiting (List.dropWhile_suffix _) rfl he

theorem jump? {name : String} {found : List Frame}
    (h : Frame.jump? name (frame :: outer) = some found)
    (he : Enclosed script frame.commands outer) : Stack script found := by
  induction outer generalizing frame with
  | nil =>
    simp only [Frame.jump?] at h
    split at h
    · cases h
      exact atLabel? ‹_› he
    · cases h
  | cons parent outer ih =>
    rw [Frame.jump?] at h
    split at h
    · cases h
      exact atLabel? ‹_› he
    · cases he with
      | body _ _ _ _ he => exact ih h he

end Stack

namespace Execution

variable {script : List Command} {frame : Frame} {outer : List Frame} {store : Store}
  {input : Option Input}

def frames : Execution → List Frame
  | descend frames => frames
  | stop outcome => outcome.frames

theorem Executes.stack {execution : Execution} (h : Executes store input frame outer execution)
    (hs : Stack script (frame :: outer)) : Stack script execution.frames := by
  have hstill {command : Command} (hc : frame.current? = some command)
      (hn : command.waits = false) : frame.waiting = false := hs.not_waiting_of_current? hc hn
  obtain _ | ⟨hsuffix, hwaits, henc⟩ := id hs
  cases h with
  | atEnd => exact hs
  | plain hc hp =>
    refine .next frame.endChain hsuffix (hstill hc ?_) henc
    rename_i command
    cases command <;> simp_all [Command.isPlain, Command.waits]
  | label hc =>
    exact .enter frame.endChain hsuffix (hstill hc rfl) henc hc (by simp [Command.bodies])
  | shown hc => exact .walking hsuffix (fun _ => ⟨_, hc, rfl⟩) henc
  | dismissed => exact .next frame.endChain.answered hsuffix rfl henc
  | kept => exact .walking hsuffix hwaits henc
  | emptyMenu hc => exact .next frame.endChain hsuffix (hstill hc rfl) henc
  | offered hc hne =>
    exact .walking hsuffix (fun _ => ⟨_, hc, by simpa [Command.waits] using hne⟩) henc
  | chosen hc _ _ _ hi =>
    refine .enter frame.endChain.answered hsuffix rfl henc hc ?_
    exact List.mem_map_of_mem (List.mem_of_getElem? hi)
  | declined => exact .walking hsuffix hwaits henc
  | skipped hc hk =>
    refine .next frame hsuffix (hstill hc ?_) henc
    rename_i command _
    cases command <;> simp_all [Command.continuesChain, Command.waits]
  | opened hc ho =>
    refine .enter frame.takeBranch hsuffix (hstill hc ?_) henc hc
      (Command.mem_bodies_of_openBody? ho)
    rename_i command body _
    cases command <;> simp_all [Command.openBody?, Command.waits]
  | failed hc hb =>
    refine .next frame.endChain hsuffix (hstill hc ?_) henc
    rename_i command _ _
    cases command <;> simp_all [Command.isBranch, Command.waits]
  | jumped _ hj => exact Stack.jump? hj henc
  | strayJump hc => exact .next frame.endChain hsuffix (hstill hc rfl) henc
  | finished => exact .ended

theorem stack_ofFrames {frames : List Frame} (hs : Stack script frames) :
    Stack script (ofFrames store input frames).frames := by
  cases frames with
  | nil => exact .ended
  | cons frame outer => exact executes_ofFrames.stack hs

theorem stack_chain {frames : List Frame} (fuel : Nat) (hs : Stack script frames) :
    Stack script (chain store fuel input frames).frames := by
  induction fuel generalizing input frames with
  | zero => exact hs
  | succ fuel ih =>
    have hstack : Stack script (ofFrames store input frames).frames := stack_ofFrames hs
    rw [chain]
    cases he : ofFrames store input frames with
    | descend found =>
      rw [he] at hstack
      exact ih hstack
    | stop outcome =>
      rw [he] at hstack
      exact hstack

end Execution

theorem Enclosed.any_waiting {script commands : List Command} {outer : List Frame}
    (h : Enclosed script commands outer) : outer.any (·.waiting) = false := by
  induction h with
  | whole => rfl
  | body _ hw _ _ _ ih => simp [hw, ih]

theorem Enclosed.drop {script commands : List Command} {inner outer : List Frame} {frame : Frame}
    (h : Enclosed script commands (inner ++ frame :: outer)) :
    frame.ahead <:+ frame.commands ∧ frame.waiting = false ∧
      Enclosed script frame.commands outer := by
  induction inner generalizing commands with
  | nil =>
    obtain _ | ⟨hs, hw, -, -, houter⟩ := h
    exact ⟨hs, hw, houter⟩
  | cons first inner ih =>
    obtain _ | ⟨-, -, -, -, houter⟩ := h
    exact ih houter

namespace Stack

variable {script : List Command} {frame : Frame} {outer frames : List Frame}

theorem settleUnder (h : Stack script (frame :: outer)) :
    Stack script (Frame.settleUnder frame outer) := by
  induction outer generalizing frame with
  | nil =>
    unfold Frame.settleUnder
    split
    · exact h
    · split
      · exact .ended
      · exact .ended
      · exact h
  | cons parent outer ih =>
    unfold Frame.settleUnder
    split
    · exact h
    · split
      · obtain _ | ⟨-, -, henc⟩ := h
        obtain _ | ⟨hsuffix, hw, -, -, houter⟩ := henc
        exact ih (.next parent hsuffix hw houter)
      · exact .ended
      · exact h

theorem drop {inner : List Frame} (h : Stack script (inner ++ frame :: outer)) :
    frame.ahead <:+ frame.commands ∧
      (frame.waiting = true → inner = [] ∧
        ∃ command, frame.current? = some command ∧ command.waits = true) ∧
      Enclosed script frame.commands outer := by
  cases inner with
  | nil =>
    obtain _ | ⟨hs, hw, henc⟩ := h
    exact ⟨hs, fun hwaiting => ⟨rfl, hw hwaiting⟩, henc⟩
  | cons first inner =>
    obtain _ | ⟨-, -, henc⟩ := h
    obtain ⟨hs, hstill, houter⟩ := henc.drop
    exact ⟨hs, fun hwaiting => by simp [hstill] at hwaiting, houter⟩

theorem settle (h : Stack script frames) : Stack script (Frame.settle frames) := by
  cases frames with
  | nil => exact .ended
  | cons frame outer => exact h.settleUnder

theorem any_waiting (h : Stack script (frame :: outer)) :
    (frame :: outer).any (·.waiting) = frame.waiting := by
  obtain _ | ⟨-, -, henc⟩ := h
  rw [List.any_cons, henc.any_waiting, Bool.or_false]

theorem not_waiting_of_settleUnder (hs : Stack script (frame :: outer))
    (hw : frame.waiting = false) :
    ∀ top ∈ (Frame.settleUnder frame outer).head?, top.waiting = false := by
  have hstay : ∀ top ∈ (frame :: outer).head?, top.waiting = false := by
    rintro _ ⟨⟩
    exact hw
  induction outer generalizing frame with
  | nil =>
    unfold Frame.settleUnder
    rw [if_neg (by simp [hw])]
    split <;> first | exact hstay | exact fun _ h => by cases h
  | cons parent outer ih =>
    unfold Frame.settleUnder
    rw [if_neg (by simp [hw])]
    split
    · obtain _ | ⟨-, -, _ | ⟨hsuffix, hparent, -, -, henc⟩⟩ := hs
      refine ih (.next parent hsuffix hparent henc) hparent ?_
      rintro _ ⟨⟩
      exact hparent
    · exact fun _ h => by cases h
    · exact hstay

end Stack

theorem Enclosed.length_le {script commands : List Command} {outer : List Frame}
    (h : Enclosed script commands outer) :
    outer.length + Command.nestingOf commands ≤ Command.nestingOf script := by
  induction h with
  | whole => simp
  | @body commands frame outer command hs hw hc hb he ih =>
    have hlt := Command.nestingOf_lt_nesting hb
    have hle := Command.nesting_le_nestingOf (Frame.mem_of_current? hs hc)
    simp only [List.length_cons]
    omega

theorem Stack.length_le {script : List Command} {frames : List Frame} (h : Stack script frames) :
    frames.length ≤ 1 + Command.nestingOf script := by
  cases h with
  | ended => simp
  | walking _ _ he =>
    have := he.length_le
    simp only [List.length_cons]
    omega

namespace Play

/-- The frames of a play are nested in its script. -/
def Nested (play : Play) : Prop :=
  Stack play.script play.frames

variable {play : Play}

theorem nested_start (script : List Command) (stepLimit : Nat) :
    (start script stepLimit).Nested :=
  Stack.start script

theorem Nested.step (h : play.Nested) (input : Option Input) : (play.step input).Nested :=
  (Execution.stack_chain _ (Stack.settle h)).settle

theorem Nested.advance (h : play.Nested) (input : Option Input) : (play.advance input).1.Nested :=
  advanceWithin_induction (fun _ input h => h.step input) play.stepLimit play input h

theorem Nested.of_advance {next : Play} {status : Status} {input : Option Input} (h : play.Nested)
    (hadvance : play.advance input = (next, status)) : next.Nested := by
  have hnested := h.advance input
  rwa [hadvance] at hnested

theorem Nested.run (h : play.Nested) (operations : List Operation) : (play.run operations).Nested :=
  run_induction (fun _ input h => h.step input) (fun play _ => Stack.start play.script)
    (fun _ _ h => h) (fun _ _ h => h) play h operations

theorem script_run (play : Play) (operations : List Operation) :
    (play.run operations).script = play.script :=
  run_induction (P := fun other => other.script = play.script) (fun _ _ h => h) (fun _ h => h)
    (fun _ _ h => h) (fun _ _ h => h) play rfl operations

theorem stepLimit_run (play : Play) (operations : List Operation) :
    (play.run operations).stepLimit = play.stepLimit :=
  run_induction (P := fun other => other.stepLimit = play.stepLimit) (fun _ _ h => h)
    (fun _ h => h) (fun _ _ h => h) (fun _ _ h => h) play rfl operations

end Play

end StoryScript
