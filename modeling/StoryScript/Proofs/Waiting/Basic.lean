import Mathlib.Tactic.Common
import StoryScript.Proofs.Stack
import StoryScript.Transcript

/-! # What a step does to a wait

A play waits once its innermost frame has shown a line or the choices of a menu, and an input
is accepted if it answers that frame's command. A step with any other input leaves a play that
waits as it is. All other steps end with the line or the choices that the play then waits for,
or they show neither and leave a play that waits for nothing.
-/

namespace StoryScript

namespace Command

/-- Whether an input answers a command: any input a line, a choice in range a menu. -/
def isAnsweredBy (input : Input) : Command → Bool
  | dialogue .. => true
  | menu choices =>
    match input with
    | .choose index => index < choices.length
    | .proceed => false
  | _ => false

def question? (store : Store) : Command → Option Cue
  | dialogue speaker text => some (.speech (speaker.map store.speaker) text)
  | menu choices => some (.choices (choices.map (·.prompt)))
  | _ => none

end Command

def Cue.asks : Cue → Bool
  | speech .. => true
  | choices _ => true
  | _ => false

theorem Command.asks_of_question? {store : Store} {command : Command} {cue : Cue}
    (h : command.question? store = some cue) : cue.asks = true := by
  cases command <;> simp only [question?, reduceCtorEq, Option.some.injEq] at h <;> subst h <;> rfl

/-- Whether an input answers the command for which the innermost frame waits. -/
def Frame.accept (frames : List Frame) (input : Option Input) : Bool :=
  match frames, input with
  | frame :: _, some answer => frame.waiting && frame.current?.any (·.isAnsweredBy answer)
  | _, _ => false

namespace Play

def accepts (play : Play) (input : Option Input) : Bool :=
  Frame.accept play.frames input

def question? (play : Play) : Option Event :=
  (play.frames.head?.bind (·.current?)).bind fun command =>
    (command.question? play.store).map .ofCue

end Play

variable {script : List Command} {frame : Frame} {outer frames : List Frame} {store : Store}
  {input : Option Input}

@[simp] theorem Frame.accept_none (frames : List Frame) : Frame.accept frames none = false := by
  cases frames <;> rfl

theorem Frame.accept_of_not_waiting (hw : frame.waiting = false) :
    Frame.accept (frame :: outer) input = false := by
  cases input <;> simp [Frame.accept, hw]

theorem Frame.not_waiting_of_jump? {name : String} {found : List Frame}
    (hj : Frame.jump? name frames = some found) :
    ∃ top rest, found = top :: rest ∧ top.waiting = false := by
  induction frames with
  | nil => cases hj
  | cons frame outer ih =>
    rw [Frame.jump?] at hj
    cases ha : frame.atLabel? name with
    | some other =>
      rw [ha] at hj
      cases hj
      refine ⟨other, outer, rfl, ?_⟩
      unfold Frame.atLabel? at ha
      split at ha <;> cases ha
      rfl
    | none =>
      rw [ha] at hj
      exact ih hj

namespace Execution

theorem Executes.not_waiting_of_descend {found : List Frame} {execution : Execution}
    (h : Executes store input frame outer execution) (he : execution = .descend found) :
    ∃ top rest, found = top :: rest ∧ top.waiting = false := by
  cases h with
  | label => cases he; exact ⟨_, _, rfl, rfl⟩
  | chosen => cases he; exact ⟨_, _, rfl, rfl⟩
  | opened => cases he; exact ⟨_, _, rfl, rfl⟩
  | jumped _ hj => cases he; exact Frame.not_waiting_of_jump? hj
  | _ => cases he

def cues : Execution → List Cue
  | descend _ => []
  | stop outcome => outcome.cues

theorem ofFrames_line {speaker : Option String} {text : String} (hw : frame.waiting = true)
    (hc : frame.current? = some (.dialogue speaker text)) :
    ofFrames store input (frame :: outer) =
      if input.isSome then next frame.endChain.answered outer store []
      else rest (frame.endChain :: outer) store := by
  have hasks : frame.endChain.waiting = true := hw
  rw [ofFrames_of_not_isBranch hc rfl, Execution.command]
  unfold dialogue
  rw [if_pos hasks]
  cases input <;> rfl

theorem ofFrames_menu {choices : List (Choice Command)} (hw : frame.waiting = true)
    (hc : frame.current? = some (.menu choices)) (hne : choices ≠ []) :
    ofFrames store input (frame :: outer) =
      match input with
      | some (.choose index) =>
        match choices[index]? with
        | some choice => enter frame.endChain.answered outer choice.body
        | none => rest (frame.endChain :: outer) store
      | _ => rest (frame.endChain :: outer) store := by
  have hasks : frame.endChain.waiting = true := hw
  rw [ofFrames_of_not_isBranch hc rfl, Execution.command]
  unfold menu
  rw [if_neg (by simpa using hne), if_pos hasks]
  rfl

/-- A frame that waits goes on if its command is answered, and otherwise it stays. -/
theorem ofFrames_of_waiting (store : Store) (input : Option Input)
    (hs : Stack script (frame :: outer)) (hw : frame.waiting = true) :
    if Frame.accept (frame :: outer) input then
      (ofFrames store input (frame :: outer)).frames.any (·.waiting) = false ∧
        (ofFrames store input (frame :: outer)).cues = []
    else ofFrames store input (frame :: outer) = rest (frame.endChain :: outer) store := by
  obtain _ | ⟨-, hwaits, henc⟩ := hs
  obtain ⟨command, hc, hneeds⟩ := hwaits hw
  have hout := henc.any_waiting
  cases command <;> simp only [Command.waits, Bool.false_eq_true] at hneeds
  case dialogue speaker text =>
    rw [ofFrames_line hw hc]
    cases input with
    | none => simp
    | some answer =>
      simp [Frame.accept, hw, hc, Command.isAnsweredBy, next, Execution.frames, cues, Frame.next,
        Frame.answered, hout]
  case menu choices =>
    rw [ofFrames_menu hw hc (by simpa using hneeds)]
    obtain _ | _ | index := input
    · simp
    · simp [Frame.accept, hc, Command.isAnsweredBy]
    · by_cases hlt : index < choices.length
      · simp [Frame.accept, hw, hc, Command.isAnsweredBy, hlt, enter, Execution.frames, cues,
          Frame.start, Frame.answered, hout]
      · simp [Frame.accept, hc, Command.isAnsweredBy, hlt]

end Execution

/-- The innermost frame waits, outside any chain of branches, at the command that the cue
belongs to. -/
def Frame.Asking (store : Store) (cue : Cue) : List Frame → Prop
  | [] => False
  | frame :: _ => frame.waiting = true ∧ frame.branchTaken = false ∧
    ∃ command, frame.current? = some command ∧ command.question? store = some cue

/-- A step ends with the question for which it waits then, or without any. -/
inductive Outcome.Ends : Outcome → Prop
  | asking {frames store cue} : Frame.Asking store cue frames → Ends ⟨frames, store, [cue]⟩
  | quiet {frames store cues} : frames.any (·.waiting) = false → cues.length ≤ 1 →
      (∀ cue ∈ cues, cue.asks = false) → Ends ⟨frames, store, cues⟩

namespace Execution

theorem quiet_act {command : Command} :
    (command.act store).2.length ≤ 1 ∧ ∀ cue ∈ (command.act store).2, cue.asks = false := by
  unfold Command.act
  split <;> try split
  all_goals simp [Cue.asks]

/-- What a frame that does not wait can do: ask and wait, or go on without a question. -/
theorem Executes.of_not_waiting {execution : Execution}
    (h : Executes store input frame outer execution) (hw : frame.waiting = false)
    (hout : outer.any (·.waiting) = false) :
    (∃ outcome, execution = .stop outcome ∧ outcome.Ends) ∨
      ∃ found, execution = .descend found := by
  have hstays (moved : Frame) (hm : moved.waiting = false) {cues : List Cue}
      (hlength : cues.length ≤ 1) (hquiet : ∀ cue ∈ cues, cue.asks = false) (store : Store) :
      Outcome.Ends ⟨moved :: outer, store, cues⟩ :=
    .quiet (by rw [List.any_cons, hm, hout]; rfl) hlength hquiet
  have hsilent (moved : Frame) (hm : moved.waiting = false) :
      Outcome.Ends ⟨moved :: outer, store, []⟩ := hstays moved hm (by simp) (by simp) store
  cases h with
  | atEnd => exact .inl ⟨_, rfl, hsilent frame hw⟩
  | plain => exact .inl ⟨_, rfl, hstays frame.endChain.next hw quiet_act.1 quiet_act.2 _⟩
  | shown hc => exact .inl ⟨_, rfl, .asking ⟨rfl, rfl, _, hc, rfl⟩⟩
  | offered hc => exact .inl ⟨_, rfl, .asking ⟨rfl, rfl, _, hc, rfl⟩⟩
  | dismissed _ hasks => simp [hw] at hasks
  | kept _ hasks => simp [hw] at hasks
  | declined _ _ hasks => simp [hw] at hasks
  | skipped => exact .inl ⟨_, rfl, hsilent frame.next hw⟩
  | emptyMenu => exact .inl ⟨_, rfl, hsilent frame.endChain.next hw⟩
  | failed => exact .inl ⟨_, rfl, hsilent frame.endChain.next hw⟩
  | strayJump => exact .inl ⟨_, rfl, hsilent frame.endChain.next hw⟩
  | finished => exact .inl ⟨_, rfl, .quiet rfl (by simp) (by simp)⟩
  | label => exact .inr ⟨_, rfl⟩
  | chosen => exact .inr ⟨_, rfl⟩
  | opened => exact .inr ⟨_, rfl⟩
  | jumped => exact .inr ⟨_, rfl⟩

theorem ends_of_chain (fuel : Nat) (hs : Stack script frames)
    (hw : frames.any (·.waiting) = false) : (chain store fuel none frames).Ends := by
  induction fuel generalizing frames with
  | zero => exact .quiet hw (by simp) (by simp)
  | succ fuel ih =>
    cases frames with
    | nil => exact .quiet rfl (by simp) (by simp)
    | cons frame outer =>
      have hstack : Stack script (ofFrames store none (frame :: outer)).frames := stack_ofFrames hs
      rw [hs.any_waiting] at hw
      have hexec : Executes store none frame outer (ofFrames store none (frame :: outer)) :=
        executes_ofFrames
      obtain _ | ⟨-, -, henc⟩ := id hs
      rw [chain]
      obtain ⟨outcome, he, hends⟩ | ⟨found, he⟩ := hexec.of_not_waiting hw henc.any_waiting
      · rw [he]
        exact hends
      · rw [he] at hstack ⊢
        obtain ⟨top, rest, rfl, htop⟩ := hexec.not_waiting_of_descend he
        exact ih hstack (by rwa [Stack.any_waiting hstack])

theorem ends_of_accept (fuel : Nat) (hs : Stack script (frame :: outer))
    (hw : frame.waiting = true) (ha : Frame.accept (frame :: outer) input = true) :
    (chain store (fuel + 1) input (frame :: outer)).Ends := by
  have hstack : Stack script (ofFrames store input (frame :: outer)).frames := stack_ofFrames hs
  have hgoes := ofFrames_of_waiting store input hs hw
  rw [if_pos ha] at hgoes
  rw [chain]
  cases he : ofFrames store input (frame :: outer) with
  | descend found =>
    rw [he] at hstack hgoes
    exact ends_of_chain fuel hstack hgoes.1
  | stop outcome =>
    rw [he] at hgoes
    have hnone : outcome.cues = [] := hgoes.2
    exact .quiet hgoes.1 (by simp [hnone]) (by simp [hnone])

theorem chain_of_not_accept (fuel : Nat) (hs : Stack script (frame :: outer))
    (hw : frame.waiting = true) (ha : Frame.accept (frame :: outer) input = false) :
    chain store (fuel + 1) input (frame :: outer) = ⟨frame.endChain :: outer, store, []⟩ := by
  have hstays := ofFrames_of_waiting store input hs hw
  rw [if_neg (by simp [ha])] at hstays
  rw [chain, hstays]
  rfl

end Execution

namespace Stack

theorem settle_of_waiting (hs : Stack script frames) (hw : frames.any (·.waiting) = true) :
    Frame.settle frames = frames := by
  cases frames with
  | nil => rfl
  | cons frame outer =>
    rw [hs.any_waiting] at hw
    exact Frame.settleUnder_of_waiting hw

theorem not_waiting_of_settle (hs : Stack script frames) (hw : frames.any (·.waiting) = false) :
    (Frame.settle frames).any (·.waiting) = false := by
  cases frames with
  | nil => rfl
  | cons frame outer =>
    rw [hs.any_waiting] at hw
    have htop := hs.not_waiting_of_settleUnder hw
    have hsettled := hs.settleUnder
    cases hf : Frame.settleUnder frame outer with
    | nil => rw [Frame.settle, hf]; rfl
    | cons top rest =>
      rw [hf] at htop hsettled
      rw [Frame.settle, hf, hsettled.any_waiting]
      exact htop top rfl

end Stack

theorem Frame.Asking.any_waiting {cue : Cue} (h : Frame.Asking store cue frames) :
    frames.any (·.waiting) = true := by
  cases frames with
  | nil => exact h.elim
  | cons frame outer => rw [List.any_cons, h.1, Bool.true_or]

theorem Frame.Asking.asks {cue : Cue} (h : Frame.Asking store cue frames) : cue.asks = true := by
  cases frames with
  | nil => exact h.elim
  | cons frame outer =>
    obtain ⟨-, -, command, -, hc⟩ := h
    exact Command.asks_of_question? hc

theorem Outcome.Ends.settle {outcome : Outcome} (h : outcome.Ends)
    (hs : Stack script outcome.frames) :
    Outcome.Ends ⟨Frame.settle outcome.frames, outcome.store, outcome.cues⟩ := by
  cases h with
  | asking hasks =>
    rw [hs.settle_of_waiting hasks.any_waiting]
    exact .asking hasks
  | quiet hw hlength hquiet => exact .quiet (hs.not_waiting_of_settle hw) hlength hquiet

namespace Play

/-- What a step makes of a play. -/
inductive Proceeds (play : Play) (input : Option Input) : Play → Prop
  /-- The play waits for something else. -/
  | unanswered {frame : Frame} {outer : List Frame} :
      play.isWaiting = true → play.accepts input = false → play.frames = frame :: outer →
      Proceeds play input { play with frames := frame.endChain :: outer }
  /-- The play waits and is answered, or it does not wait. -/
  | taken {frames : List Frame} {store : Store} {cues : List Cue} :
      play.isWaiting = play.accepts input → Outcome.Ends ⟨frames, store, cues⟩ →
      Proceeds play input
        { play with frames := frames, store := store, log := cues.reverse ++ play.log }

variable {play : Play}

theorem isWaiting_of_awaitsChoice (h : play.awaitsChoice = true) : play.isWaiting = true := by
  unfold awaitsChoice at h
  split at h
  · cases h
  · rename_i hf
    rw [isWaiting, hf, List.any_cons, (Bool.and_eq_true_iff.1 h).1, Bool.true_or]

theorem accepts_of_not_waiting (hn : play.Nested) (hw : play.isWaiting = false) :
    play.accepts input = false := by
  unfold accepts
  cases hf : play.frames with
  | nil => cases input <;> rfl
  | cons frame outer =>
    rw [Nested, hf] at hn
    rw [isWaiting, hf, hn.any_waiting] at hw
    exact Frame.accept_of_not_waiting hw

theorem settle_of_waiting (hn : play.Nested) (hw : play.isWaiting = true) :
    play.settle = play := by
  rw [settle, Stack.settle_of_waiting hn hw]

theorem step_of_not_waiting (hn : play.Nested) (hw : play.isWaiting = false) :
    play.step input = play.step none := by
  have hstill : play.settle.isWaiting = false := Stack.not_waiting_of_settle hn hw
  simp only [step, hstill, Bool.false_eq_true, ite_false]

theorem step_of_waiting (hn : play.Nested) (hw : play.isWaiting = true) :
    play.step input =
      { play with
        frames := Frame.settle
          (Execution.chain play.store (max play.stepLimit 1) input play.frames).frames
        store := (Execution.chain play.store (max play.stepLimit 1) input play.frames).store
        log := (Execution.chain play.store (max play.stepLimit 1) input play.frames).cues.reverse ++
          play.log } := by
  have hsettle : play.settle = play := settle_of_waiting hn hw
  simp only [step, hsettle, hw, ite_true]

/-- Every step does one of the two. -/
theorem proceeds_step (hn : play.Nested) (input : Option Input) :
    play.Proceeds input (play.step input) := by
  obtain ⟨fuel, hfuel⟩ : ∃ fuel, max play.stepLimit 1 = fuel + 1 :=
    Nat.exists_eq_add_one_of_ne_zero (by omega)
  cases hw : play.isWaiting with
  | false =>
    have hsettled : Stack play.script (Frame.settle play.frames) := hn.settle
    rw [step_of_not_waiting hn hw]
    refine .taken (by rw [hw, accepts_of_not_waiting hn hw]) ?_
    simp only [ite_self]
    exact (Execution.ends_of_chain _ hsettled (hn.not_waiting_of_settle hw)).settle
      (Execution.stack_chain _ hsettled)
  | true =>
    rw [step_of_waiting hn hw, hfuel]
    obtain ⟨frame, outer, hf⟩ : ∃ frame outer, play.frames = frame :: outer := by
      cases hf : play.frames with
      | nil => simp [isWaiting, hf] at hw
      | cons frame outer => exact ⟨frame, outer, rfl⟩
    rw [Nested, hf] at hn
    have hasks := hw
    rw [isWaiting, hf, hn.any_waiting] at hasks
    rw [hf]
    cases ha : play.accepts input with
    | false =>
      have hstay : Frame.accept (frame :: outer) input = false := by rwa [accepts, hf] at ha
      rw [Execution.chain_of_not_accept fuel hn hasks hstay,
        show Frame.settle (frame.endChain :: outer) = frame.endChain :: outer from
          Frame.settleUnder_of_waiting hasks]
      exact .unanswered hw ha hf
    | true =>
      have hgoes : Frame.accept (frame :: outer) input = true := by rwa [accepts, hf] at ha
      exact .taken (hw.trans ha.symm) ((Execution.ends_of_accept fuel hn hasks hgoes).settle
        (Execution.stack_chain _ hn))

end Play

end StoryScript
