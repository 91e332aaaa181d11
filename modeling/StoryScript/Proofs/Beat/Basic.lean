import StoryScript.Proofs.Stack

/-! # Beats

A run of a play is a sequence of beats, the smallest changes that a play goes through: a command
is executed, a frame is left, or the host changes something. The plays in between are the moments
of the run, those in the middle of a step among them, and what every beat preserves holds at every
moment.
-/

namespace StoryScript

/-- A smallest change of a play. -/
inductive Beat where
  /-- The current command is executed. -/
  | execute (input : Option Input)
  /-- The innermost frame is left at its end, or all frames at the end of the story. -/
  | leave
  | restart
  | assign (assignment : Assignment)
  | replaceStore (store : Store)
deriving Repr

namespace Frame

/-- The frames after the innermost one has been left at its end, or all of them at the end of the
story; none if the innermost frame stays. -/
def leave? : List Frame → Option (List Frame)
  | [] => none
  | frame :: outer =>
    if frame.waiting then none
    else
      match frame.ahead with
      | [] => some (outer.modifyHead next)
      | .finish :: _ => some []
      | _ :: _ => none

/-- The beats by which all frames at their end are left, from the innermost one on. -/
def leavesUnder (frame : Frame) (outer : List Frame) : List Beat :=
  if frame.waiting then []
  else
    match frame.ahead with
    | [] =>
      match outer with
      | [] => [.leave]
      | parent :: outer => .leave :: leavesUnder parent.next outer
    | .finish :: _ => [.leave]
    | _ :: _ => []

/-- The beats by which all frames at their end are left. -/
def leaves : List Frame → List Beat
  | [] => []
  | frame :: outer => leavesUnder frame outer

end Frame

/-- The beats of a step after the frames at their end have been left. -/
def Execution.beats (store : Store) : Nat → Option Input → List Frame → List Beat
  | 0, _, _ => []
  | fuel + 1, input, frames =>
    .execute input ::
      match ofFrames store input frames with
      | .descend found => beats store fuel none found
      | .stop _ => []

namespace Play

def after (play : Play) : Beat → Play
  | .execute input =>
    match Execution.ofFrames play.store input play.frames with
    | .descend frames => { play with frames := frames }
    | .stop outcome =>
      { play with
        frames := outcome.frames
        store := outcome.store
        log := outcome.cues.reverse ++ play.log }
  | .leave => { play with frames := (Frame.leave? play.frames).getD play.frames }
  | .restart => play.restart
  | .assign assignment => play.assign assignment
  | .replaceStore store => { play with store := store }

def afterAll (play : Play) (beats : List Beat) : Play :=
  beats.foldl after play

/-- The beats of a step. -/
def stepBeats (play : Play) (input : Option Input) : List Beat :=
  let input := if play.settle.isWaiting then input else none
  let frames := Frame.settle play.frames
  let fuel := max play.stepLimit 1
  Frame.leaves play.frames ++ Execution.beats play.store fuel input frames ++
    Frame.leaves (Execution.chain play.store fuel input frames).frames

/-- The beats of steps until the play waits or is over, at most as many steps as given. -/
def advanceBeats : Nat → Play → Option Input → List Beat
  | 0, _, _ => []
  | steps + 1, play, input =>
    play.stepBeats input ++
      if (play.step input).isFinished || (play.step input).isWaiting then []
      else advanceBeats steps (play.step input) none

def operationBeats (play : Play) : Operation → List Beat
  | .step input => play.stepBeats input
  | .advance input => play.advanceBeats play.stepLimit input
  | .restart => [.restart]
  | .assign assignment => [.assign assignment]
  | .replaceStore store => [.replaceStore store]

def beats (play : Play) : List Operation → List Beat
  | [] => []
  | operation :: operations =>
    play.operationBeats operation ++ (play.perform operation).beats operations

/-- The plays between the beats of a sequence of operations, the first and the last one among
them. -/
def Moment (play : Play) (operations : List Operation) (moment : Play) : Prop :=
  ∃ earlier, earlier <+: play.beats operations ∧ play.afterAll earlier = moment

/-- The run of operations comes through a play: some of its beats lead to it, and the others from
there to the play after the run. -/
def Passes (play : Play) (operations : List Operation) (moment : Play) : Prop :=
  ∃ earlier later, play.beats operations = earlier ++ later ∧ play.afterAll earlier = moment ∧
    moment.afterAll later = play.run operations

end Play

theorem Command.exists_eq_label_of_isLabel {name : String} {command : Command}
    (h : command.isLabel name = true) : ∃ body, command = .label name body := by
  cases command <;> simp only [isLabel, Bool.false_eq_true, beq_iff_eq] at h
  case label other body =>
    exact ⟨body, by rw [h]⟩

namespace Frame

variable {frame : Frame} {outer frames found : List Frame}

theorem settle_eq (frames : List Frame) :
    settle frames = match leave? frames with
      | some found => settle found
      | none => frames := by
  cases frames with
  | nil => rfl
  | cons frame outer =>
    rw [settle, settleUnder.eq_def, leave?]
    cases frame.waiting with
    | true => rfl
    | false =>
      cases frame.ahead with
      | nil => cases outer <;> rfl
      | cons command later => cases command <;> rfl

theorem leaves_eq (frames : List Frame) :
    leaves frames = match leave? frames with
      | some found => .leave :: leaves found
      | none => [] := by
  cases frames with
  | nil => rfl
  | cons frame outer =>
    rw [leaves, leavesUnder.eq_def, leave?]
    cases frame.waiting with
    | true => rfl
    | false =>
      cases frame.ahead with
      | nil => cases outer <;> rfl
      | cons command later => cases command <;> rfl

/-- What leaving does: the frame around the innermost one moves on, or no frame is left over. -/
theorem leave?_cases (h : leave? frames = some found) :
    (∃ frame outer, frames = frame :: outer ∧ frame.ahead = [] ∧
      found = outer.modifyHead next) ∨ found = [] := by
  cases frames with
  | nil => cases h
  | cons frame outer =>
    rw [leave?] at h
    split at h
    · cases h
    · split at h
      · rename_i ha
        cases h
        exact .inl ⟨frame, outer, rfl, ha, rfl⟩
      · cases h
        exact .inr rfl
      · cases h

theorem length_lt_of_leave? (h : leave? frames = some found) : found.length < frames.length := by
  obtain ⟨frame, outer, rfl, -, rfl⟩ | rfl := leave?_cases h
  · simp
  · cases frames with
    | nil => cases h
    | cons frame outer => simp

theorem leave?_settle (frames : List Frame) : leave? (settle frames) = none := by
  induction hlength : frames.length using Nat.strongRecOn generalizing frames with
  | ind length ih =>
    subst hlength
    rw [settle_eq]
    cases hl : leave? frames with
    | none => exact hl
    | some found => exact ih _ (length_lt_of_leave? hl) found rfl

theorem eq_leave_of_mem_leaves {beat : Beat} (h : beat ∈ leaves frames) : beat = .leave := by
  induction hlength : frames.length using Nat.strongRecOn generalizing frames with
  | ind length ih =>
    subst hlength
    rw [leaves_eq] at h
    split at h
    · rename_i found hl
      obtain rfl | h := List.mem_cons.1 h
      · rfl
      · exact ih _ (length_lt_of_leave? hl) h rfl
    · cases h

theorem leave?_of_current? {command : Command} (hc : frame.current? = some command)
    (hn : command ≠ .finish) : leave? (frame :: outer) = none := by
  rw [leave?, ahead_eq_of_current? hc]
  split
  · rfl
  · split
    · contradiction
    · simp_all
    · rfl

end Frame

theorem Stack.leave? {script : List Command} {frames found : List Frame} (h : Stack script frames)
    (hl : Frame.leave? frames = some found) : Stack script found := by
  obtain ⟨frame, outer, rfl, -, rfl⟩ | rfl := Frame.leave?_cases hl
  · obtain _ | ⟨-, -, henc⟩ := h
    cases henc with
    | whole => exact .ended
    | body hs hw _ _ houter => exact .next _ hs hw houter
  · exact .ended

namespace Play

variable {play : Play}

@[simp] theorem afterAll_nil (play : Play) : play.afterAll [] = play := rfl

@[simp] theorem afterAll_cons (play : Play) (beat : Beat) (beats : List Beat) :
    play.afterAll (beat :: beats) = (play.after beat).afterAll beats := rfl

theorem afterAll_append (play : Play) (earlier later : List Beat) :
    play.afterAll (earlier ++ later) = (play.afterAll earlier).afterAll later :=
  List.foldl_append

theorem afterAll_leaves (play : Play) : play.afterAll (Frame.leaves play.frames) = play.settle := by
  induction hlength : play.frames.length using Nat.strongRecOn generalizing play with
  | ind length ih =>
    subst hlength
    rw [settle, Frame.settle_eq, Frame.leaves_eq]
    cases hl : Frame.leave? play.frames with
    | none => rfl
    | some found =>
      have hafter : play.after .leave = { play with frames := found } := by
        rw [after, hl, Option.getD_some]
      rw [afterAll_cons, hafter]
      exact ih _ (Frame.length_lt_of_leave? hl) { play with frames := found } rfl

theorem afterAll_executionBeats (play : Play) (fuel : Nat) (input : Option Input) :
    play.afterAll (Execution.beats play.store fuel input play.frames) =
      { play with
        frames := (Execution.chain play.store fuel input play.frames).frames
        store := (Execution.chain play.store fuel input play.frames).store
        log := (Execution.chain play.store fuel input play.frames).cues.reverse ++ play.log } := by
  induction fuel generalizing play input with
  | zero => rfl
  | succ fuel ih =>
    rw [Execution.beats, Execution.chain, afterAll_cons, after]
    cases Execution.ofFrames play.store input play.frames with
    | descend found => exact ih { play with frames := found } none
    | stop outcome => rfl

theorem step_eq (play : Play) (input : Option Input) :
    play.step input = (play.settle.afterAll (Execution.beats play.store (max play.stepLimit 1)
      (if play.settle.isWaiting then input else none) play.settle.frames)).settle :=
  (congrArg settle (afterAll_executionBeats play.settle (max play.stepLimit 1)
    (if play.settle.isWaiting then input else none))).symm

theorem afterAll_stepBeats (play : Play) (input : Option Input) :
    play.afterAll (play.stepBeats input) = play.step input := by
  have hframes := congrArg Play.frames (afterAll_executionBeats play.settle (max play.stepLimit 1)
    (if play.settle.isWaiting then input else none))
  rw [step_eq, ← afterAll_leaves, stepBeats, afterAll_append, afterAll_append, afterAll_leaves]
  exact congrArg (fun frames => afterAll _ (Frame.leaves frames)) hframes.symm

theorem afterAll_advanceBeats (steps : Nat) (play : Play) (input : Option Input) :
    play.afterAll (advanceBeats steps play input) = (advanceWithin steps play input).1 := by
  induction steps generalizing play input with
  | zero => rfl
  | succ steps ih =>
    rw [advanceBeats, afterAll_append, afterAll_stepBeats]
    simp only [advanceWithin]
    split
    · rfl
    · exact ih (play.step input) none

theorem afterAll_operationBeats (play : Play) (operation : Operation) :
    play.afterAll (play.operationBeats operation) = play.perform operation := by
  cases operation with
  | step input => exact afterAll_stepBeats play input
  | advance input => exact afterAll_advanceBeats play.stepLimit play input
  | restart => rfl
  | assign assignment => rfl
  | replaceStore store => rfl

/-- The beats of a run lead from its first play to its last one. -/
theorem afterAll_beats (play : Play) (operations : List Operation) :
    play.afterAll (play.beats operations) = play.run operations := by
  induction operations generalizing play with
  | nil => rfl
  | cons operation operations ih =>
    rw [beats, afterAll_append, afterAll_operationBeats, ih, run_cons]

theorem Moment.passes {operations : List Operation} {moment : Play}
    (h : play.Moment operations moment) : play.Passes operations moment := by
  obtain ⟨earlier, ⟨later, hbeats⟩, rfl⟩ := h
  refine ⟨earlier, later, hbeats.symm, rfl, ?_⟩
  rw [← afterAll_append, hbeats, afterAll_beats]

theorem exists_input_of_mem_executionBeats {store : Store} {fuel : Nat} {input : Option Input}
    {frames : List Frame} {beat : Beat} (h : beat ∈ Execution.beats store fuel input frames) :
    ∃ input, beat = .execute input := by
  induction fuel generalizing input frames with
  | zero => cases h
  | succ fuel ih =>
    rw [Execution.beats] at h
    obtain rfl | h := List.mem_cons.1 h
    · exact ⟨input, rfl⟩
    · split at h
      · exact ih h
      · cases h

theorem mem_stepBeats {input : Option Input} {beat : Beat} (h : beat ∈ play.stepBeats input) :
    beat = .leave ∨ ∃ input, beat = .execute input := by
  obtain h | h := List.mem_append.1 h
  · obtain h | h := List.mem_append.1 h
    · exact .inl (Frame.eq_leave_of_mem_leaves h)
    · exact .inr (exists_input_of_mem_executionBeats h)
  · exact .inl (Frame.eq_leave_of_mem_leaves h)

theorem mem_advanceBeats {steps : Nat} {input : Option Input} {beat : Beat}
    (h : beat ∈ play.advanceBeats steps input) :
    beat = .leave ∨ ∃ input, beat = .execute input := by
  induction steps generalizing play input with
  | zero => cases h
  | succ steps ih =>
    rw [advanceBeats] at h
    obtain h | h := List.mem_append.1 h
    · exact mem_stepBeats h
    · split at h
      · cases h
      · exact ih h

/-- Besides executing commands and leaving frames, a run does what the host does. -/
theorem mem_beats {operations : List Operation} {beat : Beat} (h : beat ∈ play.beats operations) :
    (beat = .leave ∨ ∃ input, beat = .execute input) ∨
      (beat = .restart ∧ .restart ∈ operations) ∨
      (∃ assignment, beat = .assign assignment ∧ .assign assignment ∈ operations) ∨
      ∃ store, beat = .replaceStore store ∧ .replaceStore store ∈ operations := by
  induction operations generalizing play with
  | nil => cases h
  | cons operation operations ih =>
    obtain h | h := List.mem_append.1 h
    · cases operation with
      | step input => exact .inl (mem_stepBeats h)
      | advance input => exact .inl (mem_advanceBeats h)
      | restart => exact .inr (.inl ⟨List.mem_singleton.1 h, List.mem_cons_self⟩)
      | assign assignment =>
        exact .inr (.inr (.inl ⟨assignment, List.mem_singleton.1 h, List.mem_cons_self⟩))
      | replaceStore store =>
        exact .inr (.inr (.inr ⟨store, List.mem_singleton.1 h, List.mem_cons_self⟩))
    · refine (ih h).imp_right (Or.imp ?_ (Or.imp ?_ ?_))
      · exact fun ⟨hbeat, hmem⟩ => ⟨hbeat, List.mem_cons_of_mem _ hmem⟩
      · exact fun ⟨assignment, hbeat, hmem⟩ => ⟨assignment, hbeat, List.mem_cons_of_mem _ hmem⟩
      · exact fun ⟨store, hbeat, hmem⟩ => ⟨store, hbeat, List.mem_cons_of_mem _ hmem⟩

variable {P : Play → Prop}

theorem afterAll_induction (hafter : ∀ play beat, P play → P (play.after beat)) (h : P play)
    (beats : List Beat) : P (play.afterAll beats) := by
  induction beats generalizing play with
  | nil => exact h
  | cons beat beats ih => exact ih (hafter play beat h)

theorem Nested.after (h : play.Nested) (beat : Beat) : (play.after beat).Nested := by
  cases beat with
  | execute input =>
    have hstack : Stack play.script (Execution.ofFrames play.store input play.frames).frames :=
      Execution.stack_ofFrames h
    rw [Play.after]
    split
    · rename_i found he
      rw [he] at hstack
      exact hstack
    · rename_i outcome he
      rw [he] at hstack
      exact hstack
  | leave =>
    cases hl : Frame.leave? play.frames with
    | none =>
      rw [Play.after, hl]
      exact h
    | some found =>
      rw [Play.after, hl]
      exact Stack.leave? h hl
  | restart => exact Stack.start play.script
  | assign assignment => exact h
  | replaceStore store => exact h

theorem Nested.afterAll (h : play.Nested) (beats : List Beat) : (play.afterAll beats).Nested :=
  afterAll_induction (fun _ beat h => h.after beat) h beats

theorem script_after (play : Play) (beat : Beat) : (play.after beat).script = play.script := by
  cases beat with
  | execute input =>
    rw [Play.after]
    split <;> rfl
  | _ => rfl

theorem script_afterAll (play : Play) (beats : List Beat) :
    (play.afterAll beats).script = play.script :=
  afterAll_induction (P := fun other => other.script = play.script)
    (fun other beat h => by rw [script_after, h]) rfl beats

/-- At every moment of a run the frames are nested in the script. -/
theorem Moment.stack {script : List Command} {stepLimit : Nat} {operations : List Operation}
    {moment : Play} (h : (start script stepLimit).Moment operations moment) :
    Stack script moment.frames := by
  obtain ⟨earlier, -, rfl⟩ := h
  have hnested := (nested_start script stepLimit).afterAll earlier
  rwa [Nested, script_afterAll] at hnested

end Play

end StoryScript
