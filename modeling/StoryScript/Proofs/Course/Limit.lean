import StoryScript.Proofs.Course.Basic
import StoryScript.Proofs.Recording

/-! # Limits cut transcripts short

A recording with a larger step limit and with more choices goes on where one with less of both
ends. The two split the same course into different steps, but both stop wherever the play waits,
so between two inputs the one with the larger limit is never behind.
-/

namespace StoryScript

namespace Play

open Position

variable {play later : Play} {input : Option Input}

def position (play : Play) : Position :=
  ⟨Frame.settle play.frames, play.store, play.log⟩

def rests (play : Play) : Bool :=
  play.isFinished || play.isWaiting

/-- The play after at most the number of steps given, unless it rests already. -/
def pursue (play : Play) (steps : Nat) : Play :=
  if play.rests then play else (play.advanceWithin steps none).1

/-- The frames of a play are nested, and those at their end have been left. -/
structure Ready (play : Play) : Prop where
  nested : play.Nested
  settled : Frame.settle play.frames = play.frames

theorem Nested.position (h : play.Nested) : play.position.Settled play.script :=
  ⟨Stack.settle h, Frame.settle_settle _⟩

theorem Nested.ready_step (h : play.Nested) (input : Option Input) : (play.step input).Ready :=
  ⟨h.step input, Frame.settle_settle _⟩

theorem position_step (play : Play) (input : Option Input) :
    (play.step input).position =
      play.position.proceed (max play.stepLimit 1)
        (if play.position.isWaiting then input else none) := by
  unfold position step proceed
  simp only [Frame.settle_settle]
  rfl

theorem Ready.frames_position (h : play.Ready) : play.position.frames = play.frames :=
  h.settled

theorem Ready.isWaiting_position (h : play.Ready) : play.position.isWaiting = play.isWaiting := by
  rw [Position.isWaiting, h.frames_position, isWaiting]

theorem Ready.move_position (h : play.Ready) (hr : play.rests = true) :
    play.position.move = play.position := by
  rw [rests, Bool.or_eq_true] at hr
  obtain hf | hw := hr
  · exact move_of_finished (by rw [h.frames_position]; exact List.isEmpty_iff.1 hf)
  · exact move_of_waiting (by rw [h.isWaiting_position, hw])

theorem Ready.not_waiting (h : play.Ready) (hr : play.rests = false) :
    play.position.isWaiting = false := by
  rw [rests, Bool.or_eq_false_iff] at hr
  rw [h.isWaiting_position, hr.2]

theorem advanceWithin_eq_pursue (play : Play) (steps : Nat) (input : Option Input) :
    (play.advanceWithin (steps + 1) input).1 = (play.step input).pursue steps := by
  have hunfold : play.advanceWithin (steps + 1) input =
      if (play.step input).rests then (play.step input, (play.step input).status)
      else advanceWithin steps (play.step input) none := rfl
  rw [hunfold, pursue]
  split <;> rfl

theorem pursue_of_rests (hr : play.rests = true) (steps : Nat) : play.pursue steps = play := by
  rw [pursue, if_pos hr]

theorem pursue_succ (hr : play.rests = false) (steps : Nat) :
    play.pursue (steps + 1) = (play.step none).pursue steps := by
  rw [pursue, if_neg (by simp [hr]), advanceWithin_eq_pursue]

theorem Ready.pursue (h : play.Ready) (steps : Nat) : (play.pursue steps).Ready := by
  unfold Play.pursue
  split
  · exact h
  · exact advanceWithin_induction (fun _ input h => h.nested.ready_step input) steps play none h

theorem leads_pursue (h : play.Ready) (steps : Nat) :
    Leads play.position (play.pursue steps).position := by
  induction steps generalizing play with
  | zero =>
    unfold pursue
    split <;> exact .here
  | succ steps ih =>
    cases hr : play.rests with
    | true =>
      rw [pursue_of_rests hr]
      exact .here
    | false =>
      rw [pursue_succ hr]
      refine .trans ?_ (ih (h.nested.ready_step none))
      rw [position_step, ite_self]
      exact leads_proceed h.nested.position (h.not_waiting hr) _

/-- A play that is ahead and may take no fewer and no shorter steps stays ahead. -/
theorem pursue_leads {steps more : Nat} (h : play.Ready) (h' : later.Ready)
    (hlimit : play.stepLimit ≤ later.stepLimit) (hle : steps ≤ more)
    (hl : Leads play.position later.position) :
    Leads (play.pursue steps).position (later.pursue more).position := by
  induction steps generalizing play later more with
  | zero =>
    have hstays : play.pursue 0 = play := by
      unfold pursue
      split <;> rfl
    rw [hstays]
    exact hl.trans (leads_pursue h' more)
  | succ steps ih =>
    obtain ⟨more, rfl⟩ := Nat.exists_eq_add_one_of_ne_zero (Nat.ne_zero_of_lt hle)
    cases hr' : later.rests with
    | true =>
      rw [pursue_of_rests hr']
      exact (leads_pursue h (steps + 1)).of_stays hl (h'.move_position hr')
    | false =>
      cases hr : play.rests with
      | true =>
        have hsame : later.frames = play.frames := by
          rw [← h'.frames_position, hl.eq_of_stays (h.move_position hr), h.frames_position]
        rw [rests, isFinished, isWaiting, hsame] at hr'
        exact absurd (hr.symm.trans hr') (by decide)
      | false =>
        rw [pursue_succ hr, pursue_succ hr']
        refine ih (h.nested.ready_step none) (h'.nested.ready_step none) hlimit
          (Nat.le_of_succ_le_succ hle) ?_
        rw [position_step, position_step, ite_self, ite_self]
        exact hl.proceed h.nested.position (h.not_waiting hr) (h'.not_waiting hr') (by omega)

/-- Two plays are at the same position, the later one with the larger step limit. -/
structure Abreast (play later : Play) : Prop where
  nested : play.Nested
  nested_later : later.Nested
  position_eq : play.position = later.position
  limit_pos : 0 < play.stepLimit
  limit_le : play.stepLimit ≤ later.stepLimit

theorem Abreast.later_limit_pos (h : Abreast play later) : 0 < later.stepLimit :=
  Nat.lt_of_lt_of_le h.limit_pos h.limit_le

/-- An advance with a larger limit, from the same position and with the same input, does not
fall behind. -/
theorem Abreast.advance_leads (h : Abreast play later) (input : Option Input) :
    Leads (play.advance input).1.position (later.advance input).1.position := by
  have hlimit := h.limit_le
  obtain ⟨steps, hsteps⟩ := Nat.exists_eq_add_one_of_ne_zero (Nat.ne_of_gt h.limit_pos)
  obtain ⟨more, hmore⟩ := Nat.exists_eq_add_one_of_ne_zero (Nat.ne_of_gt h.later_limit_pos)
  rw [advance, advance, hsteps, hmore, advanceWithin_eq_pursue, advanceWithin_eq_pursue]
  refine pursue_leads (h.nested.ready_step input) (h.nested_later.ready_step input) hlimit
    (by omega) ?_
  rw [position_step, position_step, ← h.position_eq]
  exact proceed_leads_of_input h.nested.position _ (by omega) (by omega)

theorem ready_advance (hn : play.Nested) (hpos : 0 < play.stepLimit) (input : Option Input) :
    (play.advance input).1.Ready := by
  obtain ⟨steps, hsteps⟩ := Nat.exists_eq_add_one_of_ne_zero (Nat.ne_of_gt hpos)
  rw [advance, hsteps, advanceWithin_eq_pursue]
  exact (hn.ready_step input).pursue steps

theorem stepLimit_advance (play : Play) (input : Option Input) :
    (play.advance input).1.stepLimit = play.stepLimit :=
  stepLimit_run play [.advance input]

theorem log_suffix_advance (play : Play) (input : Option Input) :
    play.log <:+ (play.advance input).1.log :=
  advanceWithin_induction (P := fun next => play.log <:+ next.log)
    (fun _ _ h => h.trans (List.suffix_append _ _)) _ _ _ (List.suffix_refl _)

theorem Records.log_suffix {turns : Nat} {choices : List Nat} {result : Play × Ending}
    (h : Records turns play choices input result) : (play.advance input).1.log <:+ result.1.log :=
  h.induction (P := fun next => (play.advance input).1.log <:+ next.log)
    (fun next input h => h.trans (log_suffix_advance next input)) (List.suffix_refl _)

/-- Where one of two plays abreast advances to a place at which it waits, so does the other one, and
they are abreast again. -/
theorem Abreast.advance_of_waiting {next : Play} {status : Status} (h : Abreast play later)
    (hadvance : play.advance input = (next, status)) (hw : next.isWaiting = true) :
    ∃ next', later.advance input = (next', .continues) ∧ next'.frames = next.frames ∧
      Abreast next next' := by
  have hleads := h.advance_leads input
  have hready := ready_advance h.nested h.limit_pos input
  have hready' := ready_advance h.nested_later h.later_limit_pos input
  have hlimit := stepLimit_advance play input
  have hlimit' := stepLimit_advance later input
  rcases hadvance' : later.advance input with ⟨next', status'⟩
  rw [hadvance] at hleads hready hlimit
  rw [hadvance'] at hleads hready' hlimit'
  have hposition := hleads.eq_of_stays (hready.move_position (by rw [rests, hw, Bool.or_true]))
  have hframes : next'.frames = next.frames := by
    rw [← hready'.frames_position, hposition, hready.frames_position]
  refine ⟨next', ?_, hframes, hready.nested, hready'.nested, hposition.symm,
    hlimit.symm ▸ h.limit_pos, ?_⟩
  · cases status' with
    | continues => rfl
    | done =>
      rw [isWaiting, ← hframes, frames_of_done hadvance'] at hw
      cases hw
  · rw [hlimit, hlimit']
    exact h.limit_le

/-- Of two recordings that start abreast the one with further choices goes on where the other one
ends. -/
theorem Records.log_suffix_of_abreast {turns turns' : Nat} {choices more : List Nat}
    {result result' : Play × Ending} (h : Records turns play choices input result)
    (hboth : Abreast play later) (h' : Records turns' later (choices ++ more) input result') :
    result.1.log <:+ result'.1.log := by
  induction h generalizing later turns' with
  | @finished _ _ _ input _ hadvance | @usedUp _ _ input _ hadvance
  | @cutShort _ _ _ input _ hadvance =>
    have hleads := hboth.advance_leads input
    rw [hadvance] at hleads
    exact hleads.log_suffix.trans h'.log_suffix
  | chosen hadvance hawaits _ ih =>
    obtain ⟨next', hadvance', hframes, hnext⟩ :=
      hboth.advance_of_waiting hadvance (isWaiting_of_awaitsChoice hawaits)
    have hawaits' : next'.awaitsChoice = true := by rwa [awaitsChoice, hframes]
    obtain ⟨_, hlater'⟩ := h'.after_choice hadvance' hawaits'
    exact ih hnext hlater'
  | read hadvance hawaits hwaits _ ih =>
    obtain ⟨next', hadvance', hframes, hnext⟩ := hboth.advance_of_waiting hadvance hwaits
    have hawaits' : next'.awaitsChoice = false := by rwa [awaitsChoice, hframes]
    have hwaits' : next'.isWaiting = true := by rwa [isWaiting, hframes]
    obtain ⟨_, hlater'⟩ := h'.after_line hadvance' hawaits' hwaits'
    exact ih hnext hlater'

theorem abreast_start {script : List Command} {stepLimit larger : Nat}
    (hpos : 0 < stepLimit) (hlimit : stepLimit ≤ larger) :
    Abreast (.start script stepLimit) (.start script larger) :=
  ⟨nested_start script stepLimit, nested_start script larger, rfl, hpos, hlimit⟩

end Play

/-- A transcript is a prefix of every transcript of the same script with a larger step limit and
further choices. -/
theorem events_prefix_of_record? {turns turns' stepLimit larger : Nat} {script : List Command}
    {choices more : List Nat} {events events' : List Event} {ending ending' : Ending}
    (hlimit : stepLimit ≤ larger)
    (h : record? turns script choices stepLimit = some (events, ending))
    (h' : record? turns' script (choices ++ more) larger = some (events', ending')) :
    events <+: events' := by
  unfold record? at h h'
  rw [Option.map_eq_some_iff] at h h'
  obtain ⟨⟨final, _⟩, hrecord, heq⟩ := h
  obtain ⟨⟨final', _⟩, hrecord', heq'⟩ := h'
  cases heq
  cases heq'
  suffices hlog : final.log <:+ final'.log by
    obtain ⟨later, hlater⟩ := hlog
    exact ⟨later.reverse.map .ofCue, by simp [Play.events, ← hlater]⟩
  cases stepLimit with
  | zero =>
    obtain _ | turns := turns
    · cases hrecord
    have hcut : (Play.start script 0).recordWithin (turns + 1) choices none =
        some (.start script 0, .cutShort) := rfl
    rw [hcut] at hrecord
    cases hrecord
    exact List.nil_suffix
  | succ stepLimit =>
    exact (Play.records_of_recordWithin hrecord).log_suffix_of_abreast
      (Play.abreast_start (Nat.succ_pos stepLimit) hlimit) (Play.records_of_recordWithin hrecord')

def stroll : List Command :=
  [.label "hall" [
    .scene "hall" none,
    .menu [⟨"stay", [.jump "hall"]⟩, ⟨"leave", [.label "street" [.dialogue none "Rain."]]⟩]],
    .scene "field" none,
    .jump "nowhere",
    .dialogue (some "e") "Here."]

def strollEvents : List Event :=
  [.scene "hall" none, .choices ["stay", "leave"], .scene "hall" none]

def strollRest : List Event :=
  [.choices ["stay", "leave"], .narration "Rain.", .scene "field" none, .dialogue "e" "Here."]

theorem events_prefix_stroll :
    2 ≤ 9 ∧ record? 10 stroll [0] 2 = some (strollEvents, .cutShort) ∧
      record? 10 stroll ([0] ++ [1]) 9 = some (strollEvents ++ strollRest, .finished) ∧
      strollEvents <+: strollEvents ++ strollRest := by
  have hcut : record? 10 stroll [0] 2 = some (strollEvents, .cutShort) := by decide +kernel
  have hends : record? 10 stroll ([0] ++ [1]) 9 = some (strollEvents ++ strollRest, .finished) := by
    decide +kernel
  have hlimit : 2 ≤ 9 := by decide
  exact ⟨hlimit, hcut, hends, events_prefix_of_record? hlimit hcut hends⟩

end StoryScript
