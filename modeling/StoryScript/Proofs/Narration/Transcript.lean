import StoryScript.Proofs.Narration.Frames
import StoryScript.Proofs.Recording

/-! # Transcripts are narrations

Steps, advances and recordings leave the story that the frames of a play stand for as it is.
A recording that was not cut short therefore has the events of the script's narration.
-/

namespace StoryScript

/-- The choices that an input brings with it. -/
def Input.chosen : Option Input → List Nat
  | some (.choose index) => [index]
  | _ => []

namespace Play

def tale (play : Play) (choices : List Nat) : Tale :=
  ⟨play.store, choices, play.log.map .ofCue⟩

/-- The input is what the play waits for. -/
def Expects (play : Play) : Option Input → Prop
  | none => play.isWaiting = false
  | some .proceed => play.isWaiting = true ∧ play.awaitsChoice = false
  | some (.choose _) => play.awaitsChoice = true

end Play

namespace Narration

open Command

variable {script : List Command} {frame : Frame} {outer frames : List Frame} {tale : Tale}
  {result : Tale × Ending}

theorem remains_of_finish {later : List Command} (ha : frame.ahead = .finish :: later) :
    Remains (frame :: outer) tale (tale, .finished) := by
  refine .walking ?_ .ended
  have hc : frame.current? = some .finish := by rw [Frame.current?, ha, List.head?_cons]
  rw [Frame.unread_of_current? hc (by simp [continuesChain])]
  exact .finish

/-- Leaving the frames at their end leaves the story as it is. -/
theorem awaits_of_settleUnder (hs : Stack script (frame :: outer))
    (h : Awaits tale result (Frame.settleUnder frame outer)) :
    Awaits tale result (frame :: outer) := by
  induction outer generalizing frame with
  | nil =>
    unfold Frame.settleUnder at h
    split at h
    · exact h
    · rename_i hw
      rw [awaits_of_not_waiting frame (Bool.of_not_eq_true hw)]
      split at h
      · rename_i ha
        obtain _ | _ := h
        have hout : Resumes [] (tale, .through) (tale, .finished) := .outside
        refine .walking ?_ hout
        rw [Frame.unread_of_atEnd ha]
        exact .nil
      · rename_i ha
        obtain _ | _ := h
        exact remains_of_finish ha
      · rwa [awaits_of_not_waiting frame (Bool.of_not_eq_true hw)] at h
  | cons parent outer ih =>
    unfold Frame.settleUnder at h
    split at h
    · exact h
    · rename_i hw
      rw [awaits_of_not_waiting frame (Bool.of_not_eq_true hw)]
      split at h
      · rename_i ha
        obtain _ | ⟨-, -, _ | ⟨hsuffix, hparent, -, -, henc⟩⟩ := hs
        have hnext := ih (.next parent hsuffix hparent henc) h
        rw [awaits_of_not_waiting parent.next hparent, ← resumes_through] at hnext
        refine .walking ?_ hnext
        rw [Frame.unread_of_atEnd ha]
        exact .nil
      · rename_i ha
        obtain _ | _ := h
        exact remains_of_finish ha
      · rwa [awaits_of_not_waiting frame (Bool.of_not_eq_true hw)] at h

theorem awaits_of_settle (hs : Stack script frames) (h : Awaits tale result (Frame.settle frames)) :
    Awaits tale result frames := by
  cases frames with
  | nil => exact h
  | cons frame outer => exact awaits_of_settleUnder hs h

/-- What a step without input leaves is the rest of what there was before it. -/
theorem awaits_of_chain (fuel : Nat) (hw : ∀ frame ∈ frames.head?, frame.waiting = false)
    (h : Awaits (afterExecution tale (.stop (Execution.chain tale.store fuel none frames))) result
      (Execution.chain tale.store fuel none frames).frames) :
    Awaits tale result frames := by
  induction fuel generalizing frames with
  | zero => exact h
  | succ fuel ih =>
    cases frames with
    | nil => exact h
    | cons frame outer =>
      have hw : frame.waiting = false := hw frame rfl
      have hexec : Execution.Executes tale.store none frame outer _ := Execution.executes_ofFrames
      rw [awaits_of_not_waiting frame hw]
      apply remains_of_executes hexec hw
      rw [Execution.chain] at h
      cases he : Execution.ofFrames tale.store none (frame :: outer) with
      | stop outcome =>
        rw [he] at h
        exact h
      | descend found =>
        rw [he] at h
        obtain ⟨top, rest, rfl, htop⟩ := hexec.not_waiting_of_descend he
        refine ih ?_ h
        rintro _ ⟨⟩
        exact htop

def Expects (frame : Frame) : Option Input → Prop
  | none => frame.waiting = false
  | some .proceed =>
    frame.waiting = true ∧ ∃ speaker text, frame.current? = some (.dialogue speaker text)
  | some (.choose _) =>
    frame.waiting = true ∧ ∃ choices ≠ [], frame.current? = some (.menu choices)

theorem chain_proceed {store : Store} {fuel : Nat} {speaker : Option String} {text : String}
    (hw : frame.waiting = true) (hc : frame.current? = some (.dialogue speaker text)) :
    Execution.chain store (fuel + 1) (some .proceed) (frame :: outer) =
      ⟨frame.answered.endChain.next :: outer, store, []⟩ := by
  rw [Execution.chain, Execution.ofFrames_line hw hc]
  rfl

theorem chain_choose {store : Store} {fuel index : Nat} {choices : List (Choice Command)}
    (hw : frame.waiting = true) (hc : frame.current? = some (.menu choices)) (hne : choices ≠ []) :
    Execution.chain store (fuel + 1) (some (.choose index)) (frame :: outer) =
      match choices[index]? with
      | some choice =>
        Execution.chain store fuel none (.start choice.body :: frame.answered.endChain :: outer)
      | none => ⟨frame.endChain :: outer, store, []⟩ := by
  rw [Execution.chain, Execution.ofFrames_menu hw hc hne]
  cases hi : choices[index]? <;> simp only [hi] <;> rfl

/-- What a step leaves is the rest of what there was before it. A choice that the menu has not is
dropped. -/
theorem awaits_of_first_chain {input : Option Input} {fuel : Nat} (he : Expects frame input)
    (h : Awaits (afterExecution tale
      (.stop (Execution.chain tale.store (fuel + 1) input (frame :: outer)))) result
      (Execution.chain tale.store (fuel + 1) input (frame :: outer)).frames) :
    Awaits { tale with choices := Input.chosen input ++ tale.choices } result (frame :: outer) := by
  match input with
  | none =>
    refine awaits_of_chain (fuel + 1) ?_ h
    rintro _ ⟨⟩
    exact he
  | some .proceed =>
    obtain ⟨hw, speaker, text, hc⟩ := he
    rw [chain_proceed hw hc] at h
    exact (awaits_line frame hw hc).2 ((awaits_of_not_waiting _ rfl).1 h)
  | some (.choose index) =>
    obtain ⟨hw, choices, hne, hc⟩ := he
    rw [chain_choose hw hc hne] at h
    cases hi : choices[index]? with
    | some choice =>
      rw [hi] at h
      have hp : pick? choices (index :: tale.choices) = some (choice, tale.choices) := by
        simp only [pick?, hi]
      refine (awaits_choice frame hw hc hp).2 ?_
      rw [← awaits_of_not_waiting (.start choice.body) rfl]
      refine awaits_of_chain fuel ?_ h
      rintro _ ⟨⟩
      rfl
    | none =>
      rw [hi] at h
      have hp : pick? choices (index :: tale.choices) = pick? choices tale.choices := by
        simp only [pick?, hi]
      cases hpick : pick? choices tale.choices with
      | some picked =>
        exact (awaits_choice frame hw hc (hp.trans hpick)).2
          ((awaits_choice frame.endChain hw hc hpick).1 h)
      | none =>
        exact (awaits_usedUp frame hw hc (hp.trans hpick)).2
          ((awaits_usedUp frame.endChain hw hc hpick).1 h)

variable {play : Play} {input : Option Input} {choices : List Nat}

theorem exists_menu_of_awaitsChoice (hn : play.Nested) (h : play.awaitsChoice = true) :
    ∃ frame outer, play.frames = frame :: outer ∧ frame.waiting = true ∧
      ∃ choices ≠ [], frame.current? = some (.menu choices) := by
  unfold Play.awaitsChoice at h
  split at h
  · cases h
  · rename_i frame outer hframes
    rw [Bool.and_eq_true] at h
    obtain ⟨hw, hmenu⟩ := h
    split at hmenu
    · rename_i choices hc
      rw [Play.Nested, hframes] at hn
      obtain _ | ⟨-, hwaits, -⟩ := hn
      obtain ⟨command, hcommand, hwait⟩ := hwaits hw
      rw [hc] at hcommand
      cases hcommand
      exact ⟨frame, outer, hframes, hw, choices, by simpa [waits] using hwait, hc⟩
    · cases hmenu

/-- What a play waits for is what its innermost frame waits for. -/
theorem expects_of_frames (hn : play.Nested) (hframes : play.frames = frame :: outer)
    (he : play.Expects input) : Expects frame input := by
  have hwaiting : play.isWaiting = frame.waiting := by
    rw [Play.isWaiting, hframes]
    rw [Play.Nested, hframes] at hn
    exact hn.any_waiting
  obtain _ | _ | index := input
  · exact hwaiting.symm.trans he
  · obtain ⟨hw, hmenu⟩ := he
    rw [hwaiting] at hw
    refine ⟨hw, ?_⟩
    rw [Play.Nested, hframes] at hn
    obtain _ | ⟨-, hwaits, -⟩ := hn
    obtain ⟨command, hc, hwait⟩ := hwaits hw
    cases command <;> simp only [waits, Bool.false_eq_true] at hwait
    case dialogue speaker text => exact ⟨speaker, text, hc⟩
    case menu choices => simp [Play.awaitsChoice, hframes, hw, hc] at hmenu
  · obtain ⟨other, rest, hother, hw, hmenu⟩ := exists_menu_of_awaitsChoice hn he
    rw [hframes] at hother
    cases hother
    exact ⟨hw, hmenu⟩

theorem tale_eq_afterExecution {outcome : Outcome} (choices : List Nat) :
    Play.tale { play with
      frames := Frame.settle outcome.frames
      store := outcome.store
      log := outcome.cues.reverse ++ play.log } choices =
        afterExecution (play.tale choices) (.stop outcome) := by
  simp only [Play.tale, afterExecution, List.map_append]

theorem input_of_expects (he : play.Expects input) :
    (if play.isWaiting then input else none) = input := by
  match input with
  | none => exact ite_self none
  | some .proceed => rw [if_pos he.1]
  | some (.choose _) => rw [if_pos (Play.isWaiting_of_awaitsChoice he)]

theorem expects_settle (hn : play.Nested) (he : play.Expects input) :
    play.settle.Expects input := by
  match input with
  | none => exact Stack.not_waiting_of_settle hn he
  | some .proceed => rwa [Play.settle_of_waiting hn he.1]
  | some (.choose _) => rwa [Play.settle_of_waiting hn (Play.isWaiting_of_awaitsChoice he)]

/-- The first chain of a step leaves the rest of the story that there was before it. -/
theorem awaits_of_play_chain {commands : Nat} (hpos : 0 < commands) (hn : play.Nested)
    (he : play.Expects input)
    (h : Awaits (afterExecution (play.tale choices)
      (.stop (Execution.chain play.store commands input play.frames))) result
      (Execution.chain play.store commands input play.frames).frames) :
    Awaits (play.tale (Input.chosen input ++ choices)) result play.frames := by
  obtain ⟨fuel, rfl⟩ := Nat.exists_eq_add_one_of_ne_zero (Nat.ne_of_gt hpos)
  cases hframes : play.frames with
  | cons frame outer =>
    rw [hframes] at h
    exact awaits_of_first_chain (expects_of_frames hn hframes he) h
  | nil =>
    have hinput : input = none := by
      have hstill : play.isWaiting = false := by rw [Play.isWaiting, hframes]; rfl
      rw [← input_of_expects he, hstill]
      rfl
    rw [hframes] at h
    rw [hinput]
    exact h

theorem awaits_of_step (hn : play.Nested) (he : play.Expects input)
    (h : Awaits ((play.step input).tale choices) result (play.step input).frames) :
    Awaits (play.tale (Input.chosen input ++ choices)) result play.frames := by
  have hsettled : play.settle.Nested := Stack.settle hn
  have hexpects := expects_settle hn he
  unfold Play.step at h
  simp only [input_of_expects hexpects] at h
  rw [tale_eq_afterExecution] at h
  have hchain := awaits_of_settle (Execution.stack_chain _ hsettled) h
  exact awaits_of_settle hn
    (awaits_of_play_chain (Nat.lt_of_lt_of_le Nat.one_pos (Nat.le_max_right _ _)) hsettled
      hexpects hchain)

theorem awaits_of_advanceWithin {steps : Nat} (hn : play.Nested) (he : play.Expects input)
    (hsteps : steps = 0 → input = none)
    (h : Awaits ((play.advanceWithin steps input).1.tale choices) result
      (play.advanceWithin steps input).1.frames) :
    Awaits (play.tale (Input.chosen input ++ choices)) result play.frames := by
  induction steps generalizing play input with
  | zero =>
    rw [hsteps rfl]
    exact h
  | succ steps ih =>
    apply awaits_of_step hn he
    simp only [Play.advanceWithin] at h
    split at h
    · exact h
    · rename_i hgoes
      simp only [Bool.or_eq_true, not_or, Bool.not_eq_true] at hgoes
      have hnone : (play.step input).Expects none := hgoes.2
      exact ih (hn.step input) hnone (fun _ => rfl) h

theorem stepLimit_ne_zero {next : Play} {status : Status}
    (hnext : play.advance input = (next, status)) (he : play.Expects input)
    (hlimit : play.stepLimit = 0 → input = none) (hw : next.isWaiting = true) :
    next.stepLimit ≠ 0 := by
  have hsame : next.stepLimit = play.stepLimit := by
    rw [show next = (play.advanceWithin play.stepLimit input).1 by rw [← Play.advance, hnext]]
    exact Play.advanceWithin_induction (P := fun other => other.stepLimit = play.stepLimit)
      (fun _ _ h => h) _ _ _ rfl
  intro hzero
  rw [hsame] at hzero
  rw [Play.advance, hzero] at hnext
  cases hnext
  rw [hlimit hzero] at he
  have hstill : play.isWaiting = false := he
  simp [hstill] at hw

theorem awaits_of_advance {next : Play} {status : Status} (hn : play.Nested)
    (he : play.Expects input) (hlimit : play.stepLimit = 0 → input = none)
    (hnext : play.advance input = (next, status))
    (h : Awaits (next.tale choices) result next.frames) :
    Awaits (play.tale (Input.chosen input ++ choices)) result play.frames := by
  have hsame : (play.advanceWithin play.stepLimit input).1 = next := by rw [← Play.advance, hnext]
  rw [← hsame] at h
  exact awaits_of_advanceWithin hn he hlimit h

/-- A recording that was not cut short tells the rest of the story. -/
theorem awaits_of_records {turns : Nat} {final : Play × Ending}
    (h : Play.Records turns play choices input final) (hcut : final.2 ≠ .cutShort)
    (hn : play.Nested) (he : play.Expects input) (hlimit : play.stepLimit = 0 → input = none) :
    ∃ unused, Awaits (play.tale (Input.chosen input ++ choices)) (final.1.tale unused, final.2)
      play.frames := by
  induction h with
  | @finished _ _ choices _ next hadvance =>
    have hnone := Play.frames_of_done hadvance
    refine ⟨choices, awaits_of_advance hn he hlimit hadvance ?_⟩
    rw [hnone]
    exact .ended
  | usedUp hadvance hawaits =>
    obtain ⟨frame, outer, hframes, hw, offered, -, hc⟩ :=
      exists_menu_of_awaitsChoice (hn.of_advance hadvance) hawaits
    refine ⟨[], awaits_of_advance hn he hlimit hadvance ?_⟩
    rw [hframes]
    exact (awaits_usedUp frame hw hc rfl).2 rfl
  | @chosen _ _ index _ _ next _ hadvance hawaits _ ih =>
    have hpos := stepLimit_ne_zero hadvance he hlimit (Play.isWaiting_of_awaitsChoice hawaits)
    have hchoose : next.Expects (some (.choose index)) := hawaits
    obtain ⟨unused, hrest⟩ :=
      ih hcut (hn.of_advance hadvance) hchoose fun hzero => absurd hzero hpos
    exact ⟨unused, awaits_of_advance hn he hlimit hadvance hrest⟩
  | @read _ _ _ _ next _ hadvance hawaits hwaits _ ih =>
    have hpos := stepLimit_ne_zero hadvance he hlimit hwaits
    have hproceed : next.Expects (some .proceed) := ⟨hwaits, hawaits⟩
    obtain ⟨unused, hrest⟩ :=
      ih hcut (hn.of_advance hadvance) hproceed fun hzero => absurd hzero hpos
    exact ⟨unused, awaits_of_advance hn he hlimit hadvance hrest⟩
  | cutShort => exact absurd rfl hcut

end Narration

open Narration in
/-- A recording that ends with its script or at a menu for which no choice is left has the events
of the script's narration, whatever the step limit. -/
theorem narrate?_of_record? {turns stepLimit : Nat} {script : List Command} {choices : List Nat}
    {events : List Event} {ending : Ending}
    (h : record? turns script choices stepLimit = some (events, ending))
    (hcut : ending ≠ .cutShort) :
    ∃ fuel, ∀ more, fuel ≤ more → narrate? more script choices = some (events, ending) := by
  unfold record? at h
  rw [Option.map_eq_some_iff] at h
  obtain ⟨⟨final, _⟩, hrecord, heq⟩ := h
  cases heq
  have hexpects : (Play.start script stepLimit).Expects none := rfl
  obtain ⟨unused, hawaits⟩ :=
    awaits_of_records (Play.records_of_recordWithin hrecord) hcut
      (Play.nested_start script stepLimit) hexpects fun _ => rfl
  obtain _ | ⟨⟨fuel, ht⟩, hout⟩ := (awaits_of_not_waiting (.start script) rfl).1 hawaits
  refine ⟨fuel, fun more hmore => ?_⟩
  have htell := tell_extends hmore _ _ _ _ _ ht
  generalize hresult : (final.tale unused, ending) = result at hout
  cases hout
  obtain ⟨htale, rfl⟩ := Prod.mk.inj hresult
  have hevents : final.events = (final.tale unused).told.reverse := List.map_reverse
  rw [hevents, htale]
  exact congrArg _ htell

def tour : List Command :=
  [.label "start" [
    .menu [
      ⟨"again", [.jump "start", .dialogue none "unheard"]⟩,
      ⟨"leave", [.ifBranch "False" [.finish], .elseBranch [.jump "end"], .elifBranch "True" []]⟩]],
    .dialogue none "unheard",
    .label "end" [.dialogue (some "e") "bye"],
    .finish,
    .dialogue none "unheard"]

def tourEvents : List Event :=
  [.choices ["again", "leave"], .choices ["again", "leave"], .dialogue "e" "bye"]

theorem narrate?_tour :
    record? 10 tour [7, 0, 1] 100 = some (tourEvents, .finished) ∧
      ∃ fuel, ∀ more, fuel ≤ more → narrate? more tour [7, 0, 1] = some (tourEvents, .finished) :=
  have hrecord : record? 10 tour [7, 0, 1] 100 = some (tourEvents, .finished) := by
    decide +kernel
  ⟨hrecord, narrate?_of_record? hrecord (by decide)⟩

end StoryScript
