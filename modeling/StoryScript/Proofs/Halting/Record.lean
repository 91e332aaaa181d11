import StoryScript.Proofs.Halting.Remaining
import StoryScript.Proofs.Halting.Step
import StoryScript.Proofs.Recording

/-! # Recordings come to an end

A recording advances a play again and again, and nothing in its loop bounds how often. Each advance
after the first one uses up a choice or reads a line. Without jumps no line is read twice, and
without lines there is none to read: in both cases the recording comes to an end, even if choices
are rejected.
-/

namespace StoryScript

open Command

namespace Play

variable {play : Play} {choices : List Nat} {input : Option Input}

/-- A recording comes to an end if some measure never grows and every line that is read makes it
smaller. -/
theorem exists_records {I : Play → Prop} {m : Play → Nat}
    (hkeep : ∀ play input, I play → I (play.advance input).1)
    (hle : ∀ play input, I play → m (play.advance input).1 ≤ m play)
    (hread : ∀ play, I play → play.isWaiting = true → play.awaitsChoice = false →
      m (play.advance (some .proceed)).1 < m play)
    (h : I play) {turns : Nat} (hturns : m (play.advance input).1 + choices.length < turns) :
    ∃ result, Records turns play choices input result := by
  induction turns generalizing play choices input with
  | zero => exact absurd hturns (Nat.not_lt_zero _)
  | succ turns ih =>
    have hnext := hkeep play input h
    rcases hadvance : play.advance input with ⟨next, status⟩
    rw [hadvance] at hturns hnext
    dsimp only at hturns hnext
    cases status with
    | done => exact ⟨_, .finished hadvance⟩
    | continues =>
      cases hawaits : next.awaitsChoice with
      | true =>
        cases choices with
        | nil => exact ⟨_, .usedUp hadvance hawaits⟩
        | cons index choices =>
          have hsame := hle next (some (.choose index)) hnext
          rw [List.length_cons] at hturns
          obtain ⟨result, hlater⟩ := @ih next choices (some (.choose index)) hnext (by omega)
          exact ⟨result, .chosen hadvance hawaits hlater⟩
      | false =>
        cases hwaits : next.isWaiting with
        | true =>
          have hless := hread next hnext hwaits hawaits
          obtain ⟨result, hlater⟩ := @ih next choices (some .proceed) hnext (by omega)
          exact ⟨result, .read hadvance hawaits hwaits hlater⟩
        | false => exact ⟨_, .cutShort hadvance hawaits hwaits⟩

theorem exists_line_of_isWaiting (hn : play.Nested) (hw : play.isWaiting = true)
    (ha : play.awaitsChoice = false) :
    ∃ frame outer speaker text, play.frames = frame :: outer ∧ frame.waiting = true ∧
      frame.current? = some (.dialogue speaker text) := by
  cases hf : play.frames with
  | nil => simp [isWaiting, hf] at hw
  | cons frame outer =>
    rw [Nested, hf] at hn
    rw [isWaiting, hf, hn.any_waiting] at hw
    obtain _ | ⟨-, hwaits, -⟩ := hn
    obtain ⟨command, hc, hcommand⟩ := hwaits hw
    rw [awaitsChoice, hf] at ha
    simp only [hw, hc, Bool.true_and] at ha
    cases command <;> simp only [waits, Bool.false_eq_true] at hcommand
    case dialogue speaker text => exact ⟨frame, outer, speaker, text, rfl, hw, hc⟩
    case menu choices => cases ha

/-- Without jumps fewer lines remain after the line on display has been read. -/
theorem countP_remaining_advance_lt (hn : play.Nested)
    (hj : ∀ command ∈ partsOf play.script, command.isJump = false) (hlimit : play.stepLimit ≠ 0)
    (hw : play.isWaiting = true) (ha : play.awaitsChoice = false) (answer : Input) :
    (Frame.remaining (play.advance (some answer)).1.frames).countP isDialogue <
      (Frame.remaining play.frames).countP isDialogue := by
  obtain ⟨frame, outer, speaker, text, hf, hwaiting, hc⟩ := exists_line_of_isWaiting hn hw ha
  obtain ⟨steps, hsteps⟩ := Nat.exists_eq_succ_of_ne_zero hlimit
  obtain ⟨beats, hbeats⟩ := advanceBeats_of_waiting hf hwaiting steps (some answer)
  have hlater : ∀ beat ∈ beats, beat ≠ .restart := by
    intro beat hb
    have hmem : beat ∈ play.advanceBeats (steps + 1) (some answer) := by
      rw [hbeats]
      exact List.mem_cons_of_mem _ hb
    obtain rfl | ⟨input, rfl⟩ := mem_advanceBeats hmem <;> simp
  have hsublist := remaining_afterAll (hn.after (.execute (some answer)))
    (by rwa [script_after]) hlater
  have hread := remaining_eq_of_read hf hc hwaiting answer
  rw [advance, ← afterAll_advanceBeats, hsteps, Nat.succ_eq_add_one, hbeats, afterAll_cons, hread,
    List.countP_cons_of_pos rfl]
  exact Nat.lt_succ_of_le hsublist.countP_le

end Play

variable (script : List Command) (choices : List Nat) (stepLimit : Nat)

theorem exists_record?_of_records {turns : Nat}
    (h : ∃ result, Play.Records turns (.start script stepLimit) choices none result) :
    ∃ result, ∀ turns', turns ≤ turns' → record? turns' script choices stepLimit = some result := by
  obtain ⟨result, hresult⟩ := h
  refine ⟨(result.1.events, result.2), fun turns' hle => ?_⟩
  rw [record?, (hresult.mono hle).recordWithin_eq]
  rfl

theorem exists_record?_of_jump_free
    (hj : ∀ command ∈ partsOf script, command.isJump = false) :
    ∃ result, ∀ turns, (partsOf script).countP isDialogue + choices.length + 1 ≤ turns →
      record? turns script choices stepLimit = some result := by
  apply exists_record?_of_records
  by_cases hlimit : stepLimit = 0
  · subst hlimit
    exact ⟨(.start script 0, .cutShort), .cutShort rfl rfl rfl⟩
  · have hstart : (Frame.remaining (Play.start script stepLimit).frames).countP isDialogue =
        (partsOf script).countP isDialogue := by
      simp [Frame.remaining, Play.start, Frame.start]
    have hfirst := (Play.remaining_advance (Play.nested_start script stepLimit) hj none).countP_le
      (p := isDialogue)
    refine Play.exists_records
      (I := fun play => play.Nested ∧ play.script = script ∧ play.stepLimit = stepLimit)
      (m := fun play => (Frame.remaining play.frames).countP isDialogue) ?_ ?_ ?_
      ⟨Play.nested_start script stepLimit, rfl, rfl⟩ (by omega)
    · rintro play input ⟨hn, hscript, hsteps⟩
      have hsame := Play.script_run play [.advance input]
      have hkept := Play.stepLimit_run play [.advance input]
      exact ⟨hn.advance input, hsame.trans hscript, hkept.trans hsteps⟩
    · rintro play input ⟨hn, rfl, -⟩
      exact (Play.remaining_advance hn hj input).countP_le
    · rintro play ⟨hn, rfl, rfl⟩ hw ha
      exact Play.countP_remaining_advance_lt hn hj hlimit hw ha .proceed

theorem exists_record?_of_dialogue_free
    (hd : ∀ command ∈ partsOf script, command.isDialogue = false) :
    ∃ result, ∀ turns, choices.length + 1 ≤ turns →
      record? turns script choices stepLimit = some result := by
  apply exists_record?_of_records
  refine Play.exists_records (I := fun play => play.Nested ∧ play.script = script)
    (m := fun _ => 0) ?_ (fun _ _ _ => Nat.le_refl 0) ?_ ⟨Play.nested_start script stepLimit, rfl⟩
    (by omega)
  · rintro play input ⟨hn, hscript⟩
    exact ⟨hn.advance input, (Play.script_run play [.advance input]).trans hscript⟩
  · rintro play ⟨hn, rfl⟩ hw ha
    obtain ⟨frame, outer, speaker, text, hf, -, hc⟩ := Play.exists_line_of_isWaiting hn hw ha
    rw [Play.Nested, hf] at hn
    have hline : Command.dialogue speaker text ∈ partsOf play.script :=
      (hn.parts_sublist hc).subset (List.mem_singleton_self _)
    cases hd _ hline

/-- A recording of a script without jumps, or of one without lines, comes to an end within as many
advances as the script and the choices allow, and every single step comes to an end. -/
theorem record?_halts :
    ((∀ command ∈ partsOf script, command.isJump = false) →
      ∃ result, ∀ turns, (partsOf script).countP isDialogue + (partsOf script).countP isMenu +
          choices.length + 1 ≤ turns →
        record? turns script choices stepLimit = some result) ∧
      ((∀ command ∈ partsOf script, command.isDialogue = false) →
        ∃ result, ∀ turns, choices.length + 1 ≤ turns →
          record? turns script choices stepLimit = some result) ∧
      ∀ (play : Play) (input : Option Input),
        StateTransition.eval Stage.next? (.opening input play) =
          Part.some (.closing (play.step input)) := by
  refine ⟨fun hj => ?_, exists_record?_of_dialogue_free script choices stepLimit,
    Stage.eval_opening⟩
  obtain ⟨result, hresult⟩ := exists_record?_of_jump_free script choices stepLimit hj
  exact ⟨result, fun turns hle => hresult turns (by omega)⟩

def talk : List Command :=
  [.dialogue none "Well?", .menu [⟨"stay", [.dialogue (some "e") "Good."]⟩, ⟨"leave", []⟩],
    .dialogue none "Bye."]

def carousel : List Command :=
  [.label "round" [.scene "horses" none, .jump "round"]]

theorem record?_halts_talk :
    (∀ command ∈ partsOf talk, command.isJump = false) ∧
      (∃ result, ∀ turns, 7 ≤ turns → record? turns talk [5, 0] 3 = some result) ∧
      (∀ command ∈ partsOf carousel, command.isDialogue = false) ∧
      (∃ result, ∀ turns, 1 ≤ turns → record? turns carousel [] 3 = some result) ∧
      StateTransition.eval Stage.next? (.opening none (.start [.label "a" [], .jump "a"] 50)) =
        Part.some (.closing ((Play.start [.label "a" [], .jump "a"] 50).step none)) := by
  have hj : ∀ command ∈ partsOf talk, command.isJump = false := by decide
  have hd : ∀ command ∈ partsOf carousel, command.isDialogue = false := by decide
  exact ⟨hj, (record?_halts talk [5, 0] 3).1 hj, hd, (record?_halts carousel [] 3).2.1 hd,
    (record?_halts talk [] 3).2.2 _ none⟩

end StoryScript
