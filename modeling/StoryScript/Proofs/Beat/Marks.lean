import StoryScript.Proofs.Beat.Chain

/-! # The marks of the frames

A frame's mark says whether a member of the current chain of branches has been entered. It is clear
whenever a frame comes to a chain that its first member does not clear it for, whatever has happened
before.
-/

namespace StoryScript

namespace Frame

variable {frame : Frame} {outer frames found : List Frame}

/-- The mark of a frame says nothing of a chain that the frame has just come to. -/
def Ready (frame : Frame) : Prop :=
  ∀ chain : Chain, chain.StandsIn frame 0 → chain.first.continuesChain = true →
    frame.branchTaken = false

/-- A frame that is at no branch has no mark. -/
def Resting (frame : Frame) : Prop :=
  ∀ command, frame.current? = some command → command.isBranch = false → frame.branchTaken = false

/-- The marks of the frames: the innermost one is ready, and those around it are resting while a
body of theirs is walked. -/
inductive Tidy : List Frame → Prop
  | ended : Tidy []
  | walking (frame : Frame) (outer : List Frame) : frame.Ready →
      (∀ other ∈ outer, other.Resting) → Tidy (frame :: outer)

theorem Ready.of_branchTaken (h : frame.branchTaken = false) : frame.Ready :=
  fun _ _ _ => h

theorem Resting.of_branchTaken (h : frame.branchTaken = false) : frame.Resting :=
  fun _ _ _ => h

theorem Resting.of_isBranch {command : Command} (hc : frame.current? = some command)
    (hb : command.isBranch = true) : frame.Resting := by
  intro other ho hn
  rw [hc, Option.some.injEq] at ho
  simp [← ho, hb] at hn

theorem Ready.of_label {name : String} {body : List Command}
    (hc : frame.current? = some (.label name body)) : frame.Ready := by
  intro chain hin
  exact absurd hc (hin.current?_ne_label name body)

/-- A frame is ready when it moves on: if it comes to a chain that an `elif` or `else` begins, it
has passed a command that is no branch. -/
theorem Resting.next (hs : frame.ahead <:+ frame.commands) (h : frame.Resting) :
    frame.next.Ready := by
  intro chain hin hcontinues
  have htail : frame.ahead.tail = chain.members ++ chain.after := hin.ahead
  obtain ⟨last, hlast⟩ : ∃ last, frame.ahead = last :: (chain.members ++ chain.after) := by
    cases ha : frame.ahead with
    | nil => simp [ha, Chain.members] at htail
    | cons last later => exact ⟨last, by rw [← htail, ha, List.tail_cons]⟩
  obtain ⟨skipped, hskipped⟩ := hs
  have hbefore : skipped ++ [last] = chain.before := by
    have hcommands : frame.commands = chain.commands := hin.commands
    rw [hlast, hcommands, Chain.commands, ← List.singleton_append, ← List.append_assoc] at hskipped
    exact List.append_cancel_right hskipped
  refine h last ?_ (chain.begins hcontinues last ?_)
  · rw [current?, hlast, List.head?_cons]
  · rw [← hbefore, List.getLast?_concat]
    rfl

theorem Tidy.leave? (h : Tidy frames) {script : List Command} (hs : Stack script frames)
    (hl : leave? frames = some found) : Tidy found := by
  obtain ⟨frame, outer, rfl, -, rfl⟩ | rfl := leave?_cases hl
  · obtain _ | ⟨_, _, -, hrest⟩ := h
    obtain _ | ⟨-, -, henc⟩ := hs
    cases henc with
    | whole => exact .ended
    | body hsuffix =>
      rw [List.forall_mem_cons] at hrest
      exact .walking _ _ (hrest.1.next hsuffix) hrest.2
  · exact .ended

end Frame

theorem Execution.Executes.tidy {store : Store} {input : Option Input} {frame : Frame}
    {outer : List Frame} {execution : Execution} (h : Executes store input frame outer execution)
    (hs : frame.ahead <:+ frame.commands) (ht : Frame.Tidy (frame :: outer)) :
    Frame.Tidy execution.frames := by
  obtain _ | ⟨_, _, -, hrest⟩ := id ht
  have hhere {moved : Frame} (hm : moved.branchTaken = false) : Frame.Tidy (moved :: outer) :=
    .walking _ _ (.of_branchTaken hm) hrest
  have hinside {body : List Command} {moved : Frame} (hm : moved.Resting) :
      Frame.Tidy (.start body :: moved :: outer) :=
    .walking _ _ (.of_branchTaken rfl) (List.forall_mem_cons.2 ⟨hm, hrest⟩)
  cases h with
  | atEnd => exact ht
  | plain => exact hhere rfl
  | label => exact hinside (.of_branchTaken rfl)
  | shown => exact hhere rfl
  | dismissed => exact hhere rfl
  | kept => exact hhere rfl
  | emptyMenu => exact hhere rfl
  | offered => exact hhere rfl
  | chosen => exact hinside (.of_branchTaken rfl)
  | declined => exact hhere rfl
  | skipped hc hk =>
    have hresting : frame.Resting := .of_isBranch hc (Command.isBranch_of_continuesChain hk)
    exact .walking _ _ (hresting.next hs) hrest
  | opened hc ho =>
    exact hinside
      (@Frame.Resting.of_isBranch frame.takeBranch _ hc (Command.isBranch_of_openBody? ho))
  | failed => exact hhere rfl
  | jumped _ hj =>
    obtain ⟨inner, owner, rest, moved, body, hsplit, rfl, -, hcurrent⟩ :=
      Frame.exists_owner_of_jump? hj
    refine .walking _ _ (.of_label hcurrent) fun other ho => hrest other ?_
    have htail := congrArg List.tail hsplit
    rw [List.tail_cons] at htail
    rw [htail]
    cases inner with
    | nil => exact ho
    | cons first inner => exact List.mem_append_right _ (List.mem_cons_of_mem _ ho)
  | strayJump => exact hhere rfl
  | finished => exact .ended

namespace Play

variable {play : Play}

theorem tidy_after (hn : play.Nested) (ht : Frame.Tidy play.frames) (beat : Beat) :
    Frame.Tidy (play.after beat).frames := by
  cases beat with
  | execute input =>
    rw [frames_after_execute]
    cases hf : play.frames with
    | nil => exact .ended
    | cons frame outer =>
      rw [Nested, hf] at hn
      obtain _ | ⟨hs, -, -⟩ := hn
      exact Execution.executes_ofFrames.tidy hs (hf ▸ ht)
  | leave =>
    rw [after]
    cases hl : Frame.leave? play.frames with
    | none => exact ht
    | some found => exact ht.leave? hn hl
  | restart => exact .walking _ _ (.of_branchTaken rfl) (by simp)
  | assign assignment => exact ht
  | replaceStore store => exact ht

/-- At every moment of a run the marks are tidy. -/
theorem tidy_afterAll (script : List Command) (stepLimit : Nat) (beats : List Beat) :
    Frame.Tidy ((start script stepLimit).afterAll beats).frames := by
  have h : ((start script stepLimit).afterAll beats).Nested ∧
      Frame.Tidy ((start script stepLimit).afterAll beats).frames :=
    afterAll_induction (P := fun play => play.Nested ∧ Frame.Tidy play.frames)
      (fun play beat h => ⟨h.1.after beat, tidy_after h.1 h.2 beat⟩)
      ⟨nested_start script stepLimit, .walking _ _ (.of_branchTaken rfl) (by simp)⟩ beats
  exact h.2

end Play

end StoryScript
