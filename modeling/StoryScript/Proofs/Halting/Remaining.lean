import StoryScript.Proofs.Beat.Moves
import StoryScript.Proofs.Nesting.Tree

/-! # What remains of a script

Each frame has commands ahead of it, and those around the innermost one are still in the command
whose body is walked. Only a jump brings back a command that has been passed: without jumps, what
remains of a script never grows, and it shrinks when a line is read.
-/

namespace StoryScript

namespace Command

def isJump : Command → Bool
  | jump _ => true
  | _ => false

def isDialogue : Command → Bool
  | dialogue .. => true
  | _ => false

def isMenu : Command → Bool
  | menu _ => true
  | _ => false

theorem parts_sublist_of_mem {command : Command} {commands : List Command}
    (h : command ∈ commands) : command.parts.Sublist (partsOf commands) := by
  induction commands with
  | nil => cases h
  | cons first commands ih =>
    rw [partsOf_cons]
    obtain rfl | h := List.mem_cons.1 h
    · exact List.sublist_append_left _ _
    · exact (ih h).trans (List.sublist_append_right _ _)

theorem partsOf_body_sublist_of_mem {choice : Choice Command} {choices : List (Choice Command)}
    (h : choice ∈ choices) (depth : Nat) :
    (partsOf choice.body).Sublist ((levelsOfChoices depth choices).map (·.2)) := by
  induction choices with
  | nil => cases h
  | cons first choices ih =>
    rw [levelsOfChoices, List.map_append]
    obtain rfl | h := List.mem_cons.1 h
    · refine List.Sublist.trans ?_ (List.sublist_append_left _ _)
      rw [levelsOfChoice, List.map_cons, map_snd_levelsOf]
      exact List.sublist_cons_self _ _
    · exact (ih h).trans (List.sublist_append_right _ _)

theorem partsOf_sublist_of_mem_bodies {command : Command} {body : List Command}
    (h : body ∈ command.bodies) : (partsOf body).Sublist command.parts := by
  cases command <;> simp only [bodies, List.mem_singleton, List.mem_map, List.not_mem_nil] at h
  case menu choices =>
    obtain ⟨choice, hc, rfl⟩ := h
    rw [parts, levels, List.map_cons]
    exact (partsOf_body_sublist_of_mem hc 1).trans (List.sublist_cons_self _ _)
  all_goals
    subst h
    rw [parts, levels, List.map_cons, map_snd_levelsOf]
    exact List.sublist_cons_self _ _

theorem partsOf_tail_sublist (commands : List Command) :
    (partsOf commands.tail).Sublist (partsOf commands) := by
  cases commands with
  | nil => exact List.Sublist.refl _
  | cons command commands =>
    rw [partsOf_cons]
    exact List.sublist_append_right _ _

end Command

open Command

theorem Enclosed.partsOf_sublist {script commands : List Command} {outer : List Frame}
    (h : Enclosed script commands outer) : (partsOf commands).Sublist (partsOf script) := by
  induction h with
  | whole => exact List.Sublist.refl _
  | body hs _ hc hb _ ih =>
    have hcommand := parts_sublist_of_mem (Frame.mem_of_current? hs hc)
    exact ((partsOf_sublist_of_mem_bodies hb).trans hcommand).trans ih

theorem Stack.parts_sublist {script : List Command} {frame : Frame} {outer : List Frame}
    {command : Command} (h : Stack script (frame :: outer))
    (hc : frame.current? = some command) : command.parts.Sublist (partsOf script) := by
  obtain _ | ⟨hs, -, henc⟩ := h
  exact (parts_sublist_of_mem (Frame.mem_of_current? hs hc)).trans henc.partsOf_sublist

namespace Frame

variable {frame : Frame} {outer frames found : List Frame}

/-- What remains in frames: what is ahead of the innermost one, and what follows the current command
of each one around it. -/
def remaining : List Frame → List Command
  | [] => []
  | frame :: outer => partsOf frame.ahead ++ outer.flatMap fun other => partsOf other.ahead.tail

theorem Moves.remaining_sublist (h : Moves frames found)
    (hj : ∀ name, frames.head?.bind current? ≠ some (.jump name)) :
    (remaining found).Sublist (remaining frames) := by
  cases h with
  | stays => exact List.Sublist.refl _
  | marks frame _ _ hf =>
    subst hf
    exact List.Sublist.refl _
  | passes frame _ _ hf =>
    subst hf
    exact (partsOf_tail_sublist frame.ahead).append_right _
  | enters frame _ _ body hf hc hb =>
    subst hf
    simp only [remaining, List.flatMap_cons, start]
    rw [ahead_eq_of_current? hc, partsOf_cons, List.append_assoc]
    exact (partsOf_sublist_of_mem_bodies hb).append (List.Sublist.refl _)
  | jumps _ _ hc => exact absurd hc (hj _)
  | @leaves frame outer hf ha =>
    subst hf
    cases outer with
    | nil => exact List.nil_sublist _
    | cons parent outer =>
      rw [remaining, ha]
      exact List.Sublist.refl _
  | ends => exact List.nil_sublist _

end Frame

namespace Play

variable {play : Play} {frame : Frame} {outer : List Frame}

theorem remaining_after (hn : play.Nested)
    (hj : ∀ command ∈ partsOf play.script, command.isJump = false) {beat : Beat}
    (hb : beat ≠ .restart) :
    (Frame.remaining (play.after beat).frames).Sublist (Frame.remaining play.frames) := by
  refine (moves_after hb).remaining_sublist fun name hc => ?_
  cases hf : play.frames with
  | nil => simp [hf] at hc
  | cons frame outer =>
    rw [hf, List.head?_cons, Option.bind_some] at hc
    rw [Nested, hf] at hn
    have hjump : Command.jump name ∈ partsOf play.script :=
      (hn.parts_sublist hc).subset (List.mem_singleton_self _)
    cases hj _ hjump

theorem remaining_afterAll (hn : play.Nested)
    (hj : ∀ command ∈ partsOf play.script, command.isJump = false) {beats : List Beat}
    (hb : ∀ beat ∈ beats, beat ≠ .restart) :
    (Frame.remaining (play.afterAll beats).frames).Sublist (Frame.remaining play.frames) := by
  induction beats generalizing play with
  | nil => exact List.Sublist.refl _
  | cons beat beats ih =>
    rw [List.forall_mem_cons] at hb
    have hscript : ∀ command ∈ partsOf (play.after beat).script, command.isJump = false := by
      rwa [script_after]
    exact (ih (hn.after beat) hscript hb.2).trans (remaining_after hn hj hb.1)

theorem remaining_advance (hn : play.Nested)
    (hj : ∀ command ∈ partsOf play.script, command.isJump = false) (input : Option Input) :
    (Frame.remaining (play.advance input).1.frames).Sublist (Frame.remaining play.frames) := by
  rw [advance, ← afterAll_advanceBeats]
  refine remaining_afterAll hn hj fun beat hb => ?_
  obtain rfl | ⟨input, rfl⟩ := mem_advanceBeats hb <;> simp

theorem frames_after_read {speaker : Option String} {text : String}
    (hf : play.frames = frame :: outer) (hc : frame.current? = some (.dialogue speaker text))
    (hw : frame.waiting = true) (input : Input) :
    (play.after (.execute (some input))).frames = frame.endChain.answered.next :: outer := by
  have hwaiting : frame.endChain.waiting = true := hw
  rw [frames_after_execute, hf, Execution.ofFrames_of_not_isBranch hc rfl, Execution.command,
    Execution.dialogue, if_pos hwaiting]
  rfl

theorem remaining_eq_of_read {speaker : Option String} {text : String}
    (hf : play.frames = frame :: outer) (hc : frame.current? = some (.dialogue speaker text))
    (hw : frame.waiting = true) (input : Input) :
    Frame.remaining play.frames = .dialogue speaker text ::
      Frame.remaining (play.after (.execute (some input))).frames := by
  rw [frames_after_read hf hc hw, hf, Frame.remaining, Frame.ahead_eq_of_current? hc]
  rfl

theorem advanceBeats_of_waiting (hf : play.frames = frame :: outer) (hw : frame.waiting = true)
    (steps : Nat) (input : Option Input) :
    ∃ beats, play.advanceBeats (steps + 1) input = .execute input :: beats := by
  have hwaiting : play.settle.isWaiting = true := by
    rw [settle, hf, Frame.settle, Frame.settleUnder_of_waiting hw, isWaiting, List.any_cons, hw,
      Bool.true_or]
  have hleaves : Frame.leaves play.frames = [] := by
    rw [hf, Frame.leaves, Frame.leavesUnder.eq_def, hw]
    rfl
  obtain ⟨fuel, hfuel⟩ : ∃ fuel, max play.stepLimit 1 = fuel + 1 :=
    Nat.exists_eq_succ_of_ne_zero (by omega)
  rw [advanceBeats, stepBeats, hleaves, hwaiting, hfuel]
  exact ⟨_, rfl⟩

end Play

end StoryScript
