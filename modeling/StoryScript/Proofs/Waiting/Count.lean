import StoryScript.Proofs.Waiting.Basic

/-! # Questions and answers

A step shows at most one thing, ends at most one wait, and leaves the play waiting for any line
or choices that it has shown. Counted over a run, the lines and choices in a transcript are
therefore the inputs that were accepted, and one more while the play waits.
-/

namespace StoryScript

/-- Whether an event asks for input. -/
def Event.asks : Event → Bool
  | dialogue .. => true
  | narration _ => true
  | choices _ => true
  | _ => false

@[simp] theorem Event.asks_ofCue (cue : Cue) : (ofCue cue).asks = cue.asks := by
  cases cue with
  | speech speaker text => cases speaker <;> rfl
  | assign assignment => cases assignment <;> rfl
  | _ => rfl

def Execution.endedWaits (store : Store) : Nat → Option Input → List Frame → Nat
  | 0, _, _ => 0
  | fuel + 1, input, frames =>
    (frames.any (·.waiting) && !(ofFrames store input frames).frames.any (·.waiting)).toNat +
      match ofFrames store input frames with
      | .descend found => endedWaits store fuel none found
      | .stop _ => 0

namespace Play

def endedWaits (play : Play) (input : Option Input) : Nat :=
  Execution.endedWaits play.store (max play.stepLimit 1)
    (if play.settle.isWaiting then input else none) (Frame.settle play.frames)

/-- How many lines and choices a play has shown. -/
def asked (play : Play) : Nat :=
  play.events.countP (·.asks)

/-- Whether an operation brings an input that is accepted. An advance hands its input to its
first step, if it takes any. -/
def acceptsIn (play : Play) : Operation → Bool
  | .step input => play.accepts input
  | .advance input => play.stepLimit != 0 && play.accepts input
  | _ => false

/-- How many inputs are accepted in a run. -/
def accepted (play : Play) : List Operation → Nat
  | [] => 0
  | operation :: operations =>
    (play.acceptsIn operation).toNat + (play.perform operation).accepted operations

/-- What a step does about questions: it shows at most one thing, it begins to wait only for
what it has just shown, it goes on waiting for a question that it shows, and it ends one wait
if its input is accepted and none otherwise. -/
structure AsksOnce (play : Play) (input : Option Input) : Prop where
  shows : ∃ shown, (play.step input).events = play.events ++ shown ∧ shown.length ≤ 1
  begins : play.isWaiting = false → (play.step input).isWaiting = true →
    ∃ event, (play.step input).events = play.events ++ [event] ∧
      (play.step input).question? = some event
  keeps : ∀ event, (play.step input).events = play.events ++ [event] → event.asks = true →
    (play.step input).isWaiting = true ∧ (play.step input).question? = some event
  ends : play.endedWaits input = (play.accepts input).toNat

end Play

namespace Execution

variable {script : List Command} {frame : Frame} {outer frames : List Frame} {store : Store}
  {input : Option Input}

theorem endedWaits_of_not_waiting (fuel : Nat) (hs : Stack script frames)
    (hw : frames.any (·.waiting) = false) : endedWaits store fuel none frames = 0 := by
  induction fuel generalizing frames with
  | zero => rfl
  | succ fuel ih =>
    rw [endedWaits, hw, Bool.false_and, Bool.toNat_false, Nat.zero_add]
    split
    · rename_i found he
      cases frames with
      | nil => cases he
      | cons frame outer =>
        have hstack : Stack script (ofFrames store none (frame :: outer)).frames :=
          stack_ofFrames hs
        have hexec : Executes store none frame outer (ofFrames store none (frame :: outer)) :=
          executes_ofFrames
        obtain ⟨top, rest, rfl, htop⟩ := hexec.not_waiting_of_descend he
        rw [he] at hstack
        exact ih hstack (by rwa [Stack.any_waiting hstack])
    · rfl

theorem endedWaits_of_waiting (fuel : Nat) (hs : Stack script (frame :: outer))
    (hw : frame.waiting = true) :
    endedWaits store (fuel + 1) input (frame :: outer) =
      (Frame.accept (frame :: outer) input).toNat := by
  have hstack : Stack script (ofFrames store input (frame :: outer)).frames := stack_ofFrames hs
  have hgoes := ofFrames_of_waiting store input hs hw
  rw [endedWaits, hs.any_waiting, hw, Bool.true_and]
  cases ha : Frame.accept (frame :: outer) input with
  | true =>
    rw [if_pos ha] at hgoes
    rw [hgoes.1, Bool.not_false, Bool.toNat_true]
    split
    · rename_i found he
      rw [he] at hstack hgoes
      have hrest : endedWaits store fuel none found = 0 :=
        endedWaits_of_not_waiting fuel hstack hgoes.1
      rw [hrest]
    · rfl
  | false =>
    have hstays : (frame.endChain :: outer).any (·.waiting) = true := by
      rw [List.any_cons, show frame.endChain.waiting = true from hw, Bool.true_or]
    rw [if_neg (by simp [ha])] at hgoes
    simp only [hgoes, rest, Execution.frames, hstays]
    rfl

end Execution

namespace Play

variable {play : Play} {input : Option Input}

theorem asked_eq (play : Play) : play.asked = play.log.countP (·.asks) := by
  rw [asked, events, List.countP_map, List.countP_reverse]
  congr 1
  funext cue
  exact Event.asks_ofCue cue

theorem endedWaits_eq (hn : play.Nested) (input : Option Input) :
    play.endedWaits input = (play.accepts input).toNat := by
  obtain ⟨fuel, hfuel⟩ : ∃ fuel, max play.stepLimit 1 = fuel + 1 :=
    Nat.exists_eq_add_one_of_ne_zero (by omega)
  unfold endedWaits
  cases hw : play.isWaiting with
  | false =>
    have hstill : play.settle.isWaiting = false := Stack.not_waiting_of_settle hn hw
    rw [hstill, if_neg (by simp), accepts_of_not_waiting hn hw]
    exact Execution.endedWaits_of_not_waiting _ hn.settle hstill
  | true =>
    have hsettle : Frame.settle play.frames = play.frames := hn.settle_of_waiting hw
    rw [show play.settle.isWaiting = true by rw [settle, hsettle]; exact hw, if_pos rfl, hsettle,
      hfuel, accepts]
    cases hf : play.frames with
    | nil => simp [isWaiting, hf] at hw
    | cons frame outer =>
      rw [Nested, hf] at hn
      rw [isWaiting, hf, hn.any_waiting] at hw
      exact Execution.endedWaits_of_waiting fuel hn hw

/-- A question that was shown is still open or has been answered. -/
theorem asked_step (hn : play.Nested) (input : Option Input) :
    (play.step input).asked + play.isWaiting.toNat =
      play.asked + (play.accepts input).toNat + (play.step input).isWaiting.toNat := by
  have hstep := proceeds_step hn input
  generalize play.step input = next at hstep
  cases hstep with
  | unanswered hw ha hf =>
    rw [asked_eq, asked_eq, ha, isWaiting, isWaiting, hf]
    simp [Frame.endChain]
  | @taken frames store cues hw hends =>
    rw [asked_eq, asked_eq, hw, List.countP_append, List.countP_reverse, isWaiting]
    cases hends with
    | asking hasks =>
      simp only [hasks.any_waiting, hasks.asks, List.countP_singleton, ite_true, Bool.toNat_true]
      omega
    | quiet hstill _ hquiet =>
      have hzero : cues.countP (·.asks) = 0 := List.countP_eq_zero.2 (by simpa using hquiet)
      simp only [hstill, hzero, Bool.toNat_false]
      omega

theorem asked_advanceWithin (hn : play.Nested) (steps : Nat) (input : Option Input) :
    (play.advanceWithin steps input).1.asked + play.isWaiting.toNat =
      play.asked + (steps != 0 && play.accepts input).toNat +
        (play.advanceWithin steps input).1.isWaiting.toNat := by
  induction steps generalizing play input with
  | zero => simp [advanceWithin]
  | succ steps ih =>
    have hstep := asked_step hn input
    simp only [advanceWithin]
    split
    · simpa using hstep
    · rename_i hgoes
      simp only [Bool.or_eq_true, not_or, Bool.not_eq_true] at hgoes
      have hrest := ih (hn.step input) none
      rw [hgoes.2, accepts_of_not_waiting (hn.step input) hgoes.2] at hrest
      rw [hgoes.2] at hstep
      simp at hrest hstep ⊢
      omega

theorem asked_perform (hn : play.Nested) {operation : Operation} (hr : operation ≠ .restart) :
    (play.perform operation).asked + play.isWaiting.toNat =
      play.asked + (play.acceptsIn operation).toNat + (play.perform operation).isWaiting.toNat := by
  cases operation with
  | step input => exact asked_step hn input
  | advance input => exact asked_advanceWithin hn play.stepLimit input
  | restart => exact (hr rfl).elim
  | assign assignment => simp [asked_eq, perform, assign, acceptsIn, isWaiting, Cue.asks]
  | replaceStore store => rfl

theorem asked_run (hn : play.Nested) {operations : List Operation}
    (hr : .restart ∉ operations) :
    (play.run operations).asked + play.isWaiting.toNat =
      play.asked + play.accepted operations + (play.run operations).isWaiting.toNat := by
  induction operations generalizing play with
  | nil => rfl
  | cons operation operations ih =>
    rw [List.mem_cons, not_or] at hr
    have hfirst := asked_perform hn (Ne.symm hr.1)
    have hrest := ih (hn.run [operation]) hr.2
    rw [run_cons, accepted]
    rw [run_cons, run_nil] at hrest
    omega

theorem question?_of_asking {cue : Cue} (h : Frame.Asking play.store cue play.frames) :
    play.question? = some (.ofCue cue) := by
  unfold question?
  cases hf : play.frames with
  | nil => rw [hf] at h; exact h.elim
  | cons frame outer =>
    rw [hf] at h
    obtain ⟨-, -, command, hc, hq⟩ := h
    simp [hc, hq]

/-- A step shows what the play waits for then, or it shows no question and the play waits only
if it did before and has not been answered. -/
theorem Proceeds.shown {next : Play} (h : play.Proceeds input next) :
    (∃ event, next.events = play.events ++ [event] ∧ next.isWaiting = true ∧
      next.question? = some event) ∨
    ∃ shown, next.events = play.events ++ shown ∧ shown.length ≤ 1 ∧
      (∀ event ∈ shown, event.asks = false) ∧
      next.isWaiting = (play.isWaiting && !play.accepts input) := by
  cases h with
  | unanswered hw ha hf =>
    refine .inr ⟨[], by simp [events], by simp, by simp, ?_⟩
    rw [ha, Bool.not_false, Bool.and_true, isWaiting, isWaiting, hf]
    rfl
  | @taken frames store cues hw hends =>
    cases hends with
    | @asking _ _ cue hasks =>
      exact .inl ⟨.ofCue cue, by simp [events], hasks.any_waiting, question?_of_asking hasks⟩
    | quiet hstill hlength hquiet =>
      refine .inr ⟨cues.map .ofCue, by simp [events], by simpa using hlength,
        by simpa using hquiet, ?_⟩
      rw [hw, Bool.and_not_self]
      exact hstill

theorem asksOnce (hn : play.Nested) (input : Option Input) : play.AsksOnce input := by
  obtain ⟨event, hevents, hw, hq⟩ | ⟨shown, hevents, hlength, hquiet, hw⟩ :=
    (proceeds_step hn input).shown
  · refine ⟨⟨[event], hevents, Nat.le_refl 1⟩, fun _ _ => ⟨event, hevents, hq⟩, ?_,
      endedWaits_eq hn input⟩
    intro other hother _
    obtain rfl : event = other := by simpa [hevents] using hother
    exact ⟨hw, hq⟩
  · refine ⟨⟨shown, hevents, hlength⟩, ?_, ?_, endedWaits_eq hn input⟩
    · intro hbefore hafter
      simp [hw, hbefore] at hafter
    · intro event hevent hasks
      obtain rfl : shown = [event] := by simpa [hevents] using hevent
      simp [hquiet event] at hasks

end Play

/-- In every run each step asks at most once and ends at most one wait. In a run without restarts
the lines and choices shown are as many as the inputs accepted, and one more while the play
waits. -/
theorem asked_eq_accepted_add_waiting (script : List Command) (stepLimit : Nat)
    (operations : List Operation) :
    (∀ input, ((Play.start script stepLimit).run operations).AsksOnce input) ∧
      (.restart ∉ operations →
        ((Play.start script stepLimit).run operations).asked =
          (Play.start script stepLimit).accepted operations +
            ((Play.start script stepLimit).run operations).isWaiting.toNat) := by
  have hn := Play.nested_start script stepLimit
  refine ⟨fun input => Play.asksOnce (hn.run operations) input, fun hr => ?_⟩
  simpa [Play.start, Play.asked, Play.events, Play.isWaiting, Frame.start] using
    Play.asked_run hn hr

def greeting : List Command :=
  [.menu [⟨"greet", [.label "hello" [.dialogue (some "e") "Hello"]]⟩], .dialogue none "The end"]

/-- A choice out of range, a choice that is accepted and shows a line at once, and an input that
dismisses the line and finds nothing more to dismiss. -/
def greetingRun : List Operation :=
  [.advance none, .step (some (.choose 1)), .step (some (.choose 0)), .step (some .proceed),
    .step (some .proceed)]

theorem asked_greeting :
    .restart ∉ greetingRun ∧ (Play.start greeting 100).accepted greetingRun = 2 ∧
      ((Play.start greeting 100).run greetingRun).isWaiting = true ∧
      ((Play.start greeting 100).run greetingRun).asked = 3 := by
  have hr : .restart ∉ greetingRun := by simp [greetingRun]
  have haccepted : (Play.start greeting 100).accepted greetingRun = 2 := by decide +kernel
  have hwaits : ((Play.start greeting 100).run greetingRun).isWaiting = true := by decide +kernel
  refine ⟨hr, haccepted, hwaits, ?_⟩
  rw [(asked_eq_accepted_add_waiting greeting 100 greetingRun).2 hr, haccepted, hwaits]
  rfl

end StoryScript
