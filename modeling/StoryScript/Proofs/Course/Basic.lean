import Mathlib.Tactic.Common
import StoryScript.Proofs.Waiting.Basic

/-! # The course of a play

From every position a play has one course, which it follows command by command until it waits
or is over. Its step limit only says how many commands are executed before the frames at their
end are left, and it makes no difference when they are: a body that has just been entered is
left at once if it is empty, and the story ends at once if it begins with its end. So a larger
limit only leads further along the same course.
-/

namespace StoryScript

namespace Frame

theorem settleUnder_cases (frame : Frame) (outer : List Frame) :
    settleUnder frame outer = frame :: outer ∨
      (frame.waiting = false ∧ (frame.ahead = [] ∨ ∃ later, frame.ahead = .finish :: later)) := by
  unfold settleUnder
  split
  · exact .inl rfl
  · rename_i hw
    have hstill : frame.waiting = false := by simpa using hw
    split
    · rename_i ha
      exact .inr ⟨hstill, .inl ha⟩
    · rename_i later ha
      exact .inr ⟨hstill, .inr ⟨later, ha⟩⟩
    · exact .inl rfl

theorem settle_settleUnder (frame : Frame) (outer : List Frame) :
    settle (settleUnder frame outer) = settleUnder frame outer := by
  induction outer generalizing frame with
  | nil =>
    obtain h | ⟨hw, ha | ⟨later, ha⟩⟩ := settleUnder_cases frame []
    · rw [h]
      exact h
    · rw [settleUnder, hw, ha]; rfl
    · rw [settleUnder, hw, ha]; rfl
  | cons parent outer ih =>
    obtain h | ⟨hw, ha | ⟨later, ha⟩⟩ := settleUnder_cases frame (parent :: outer)
    · rw [h]
      exact h
    · rw [settleUnder, hw, ha]
      exact ih parent.next
    · rw [settleUnder, hw, ha]; rfl

@[simp] theorem settle_settle (frames : List Frame) : settle (settle frames) = settle frames := by
  cases frames with
  | nil => rfl
  | cons frame outer => exact settle_settleUnder frame outer

end Frame

structure Position where
  frames : List Frame
  store : Store
  log : List Cue

namespace Position

def isWaiting (position : Position) : Bool :=
  position.frames.any (·.waiting)

def proceed (position : Position) (fuel : Nat) (input : Option Input) : Position :=
  let outcome := Execution.chain position.store fuel input position.frames
  ⟨Frame.settle outcome.frames, outcome.store, outcome.cues.reverse ++ position.log⟩

def move (position : Position) : Position :=
  if position.isWaiting then position else position.proceed 1 none

/-- A play comes from one position to another one. -/
inductive Leads : Position → Position → Prop
  | here {position} : Leads position position
  | ahead {position later} : Leads position.move later → Leads position later

/-- The frames of a position are nested in the script, and those at their end have been left. -/
structure Settled (script : List Command) (position : Position) : Prop where
  stack : Stack script position.frames
  settle : Frame.settle position.frames = position.frames

variable {script : List Command} {position other later : Position} {input : Option Input}

theorem Leads.trans (h : Leads position other) (h' : Leads other later) : Leads position later := by
  induction h with
  | here => exact h'
  | ahead _ ih => exact .ahead (ih h')

theorem Leads.of_stays (h : Leads position other) (h' : Leads position later)
    (hstays : later.move = later) : Leads other later := by
  induction h with
  | here => exact h'
  | @ahead position other h ih =>
    cases h' with
    | here => exact ih (by rw [hstays]; exact .here)
    | ahead h' => exact ih h'

theorem Leads.eq_of_stays (h : Leads position later) (hstays : position.move = position) :
    later = position := by
  induction h with
  | here => rfl
  | @ahead position later _ ih => rw [ih (by rw [hstays]; exact hstays), hstays]

theorem Leads.log_suffix (h : Leads position other) : position.log <:+ other.log := by
  induction h with
  | here => exact List.suffix_refl _
  | @ahead position other _ ih =>
    refine List.IsSuffix.trans ?_ ih
    unfold move
    split
    · exact List.suffix_refl _
    · exact List.suffix_append _ _

theorem Settled.proceed (h : position.Settled script) (fuel : Nat) (input : Option Input) :
    (position.proceed fuel input).Settled script :=
  ⟨(Execution.stack_chain fuel h.stack).settle, Frame.settle_settle _⟩

theorem Settled.move (h : position.Settled script) : position.move.Settled script := by
  unfold Position.move
  split
  · exact h
  · exact h.proceed 1 none

theorem Settled.leads (h : position.Settled script) (hl : Leads position other) :
    other.Settled script := by
  induction hl with
  | here => exact h
  | ahead _ ih => exact ih h.move

theorem move_of_waiting (hw : position.isWaiting = true) : position.move = position := by
  unfold move
  rw [if_pos hw]

theorem move_of_not_waiting (hw : position.isWaiting = false) :
    position.move = position.proceed 1 none := by
  unfold move
  rw [if_neg (by simp [hw])]

theorem move_of_finished (hf : position.frames = []) : position.move = position := by
  obtain ⟨frames, store, log⟩ := position
  obtain rfl : frames = [] := hf
  rfl

theorem proceed_zero (h : position.Settled script) (input : Option Input) :
    position.proceed 0 input = position := by
  unfold proceed
  simp only [Execution.chain, h.settle, List.reverse_nil, List.nil_append]

/-- Frames that are about to be left are left whether or not a command is executed before. -/
theorem proceed_of_unsettled (store : Store) (log : List Cue) (frames : List Frame) (fuel : Nat)
    (hs : Frame.settle frames ≠ frames) :
    Position.proceed ⟨frames, store, log⟩ fuel none = ⟨Frame.settle frames, store, log⟩ := by
  cases fuel with
  | zero => rfl
  | succ fuel =>
    cases frames with
    | nil => exact absurd rfl hs
    | cons frame outer =>
      obtain h | ⟨hw, ha | ⟨later, ha⟩⟩ := Frame.settleUnder_cases frame outer
      · exact absurd h hs
      · have hexec : Execution.ofFrames store none (frame :: outer) =
            .rest (frame :: outer) store := by
          simp only [Execution.ofFrames, Frame.current?, ha, List.head?_nil]
        simp only [proceed, Execution.chain, hexec]
        rfl
      · have hexec : Execution.ofFrames store none (frame :: outer) = .rest [] store := by
          rw [Execution.ofFrames_of_not_isBranch (by rw [Frame.current?, ha]; rfl) rfl]
          rfl
        have hsettle : Frame.settle (frame :: outer) = [] := by
          rw [Frame.settle]
          unfold Frame.settleUnder
          rw [hw, ha]
          rfl
        simp only [proceed, Execution.chain, hexec, hsettle]
        rfl

/-- After its first command a chain is over, or it goes on as a chain from where it is then. -/
theorem proceed_succ (h : position.Settled script) (input : Option Input) :
    (∀ fuel, position.proceed (fuel + 1) input = position.proceed 1 input) ∨
      ((position.proceed 1 input).isWaiting = false ∧
        ∀ fuel, position.proceed (fuel + 1) input =
          (position.proceed 1 input).proceed fuel none) := by
  obtain ⟨frames, store, log⟩ := position
  have hstack := h.stack
  cases frames with
  | nil => exact .inl fun fuel => rfl
  | cons frame outer =>
    cases he : Execution.ofFrames store input (frame :: outer) with
    | stop outcome =>
      refine .inl fun fuel => ?_
      simp only [proceed, Execution.chain, he]
    | descend found =>
      have hone : Position.proceed ⟨frame :: outer, store, log⟩ 1 input =
          ⟨Frame.settle found, store, log⟩ := by
        simp only [proceed, Execution.chain, he]
        rfl
      have hrest (fuel : Nat) : Position.proceed ⟨frame :: outer, store, log⟩ (fuel + 1) input =
          Position.proceed ⟨found, store, log⟩ fuel none := by
        simp only [proceed, Execution.chain, he]
      by_cases hs : Frame.settle found = found
      · refine .inr ⟨?_, fun fuel => ?_⟩
        · have hfound : Stack script (Execution.ofFrames store input (frame :: outer)).frames :=
            Execution.stack_ofFrames hstack
          obtain ⟨top, rest, rfl, htop⟩ := Execution.executes_ofFrames.not_waiting_of_descend he
          rw [he] at hfound
          rw [hone, isWaiting, hs, Stack.any_waiting hfound, htop]
        · rw [hone, hrest, hs]
      · refine .inl fun fuel => ?_
        rw [hone, hrest, proceed_of_unsettled store log found fuel hs]

theorem leads_proceed (h : position.Settled script) (hw : position.isWaiting = false)
    (fuel : Nat) : Leads position (position.proceed fuel none) := by
  induction fuel generalizing position with
  | zero =>
    rw [proceed_zero h]
    exact .here
  | succ fuel ih =>
    apply Leads.ahead
    rw [move_of_not_waiting hw]
    obtain hends | ⟨hgoes, hrest⟩ := proceed_succ h none
    · rw [hends fuel]
      exact .here
    · rw [hrest fuel]
      exact ih (h.proceed 1 none) hgoes

theorem proceed_leads (h : position.Settled script) (hw : position.isWaiting = false)
    {fuel more : Nat} (hle : fuel ≤ more) :
    Leads (position.proceed fuel none) (position.proceed more none) := by
  induction fuel generalizing position more with
  | zero =>
    rw [proceed_zero h]
    exact leads_proceed h hw more
  | succ fuel ih =>
    obtain ⟨more, rfl⟩ := Nat.exists_eq_add_one_of_ne_zero (Nat.ne_zero_of_lt hle)
    obtain hends | ⟨hgoes, hrest⟩ := proceed_succ h none
    · rw [hends fuel, hends more]
      exact .here
    · rw [hrest fuel, hrest more]
      exact ih (h.proceed 1 none) hgoes (Nat.le_of_succ_le_succ hle)

theorem proceed_leads_of_input (h : position.Settled script) (input : Option Input)
    {fuel more : Nat} (hpos : 0 < fuel) (hle : fuel ≤ more) :
    Leads (position.proceed fuel input) (position.proceed more input) := by
  obtain ⟨fuel, rfl⟩ := Nat.exists_eq_add_one_of_ne_zero (Nat.ne_of_gt hpos)
  obtain ⟨more, rfl⟩ := Nat.exists_eq_add_one_of_ne_zero (Nat.ne_zero_of_lt hle)
  obtain hends | ⟨hgoes, hrest⟩ := proceed_succ h input
  · rw [hends fuel, hends more]
    exact .here
  · rw [hrest fuel, hrest more]
    exact proceed_leads (h.proceed 1 input) hgoes (Nat.le_of_succ_le_succ hle)

/-- A chain that starts later and has no less fuel ends later. -/
theorem Leads.proceed (hl : Leads position other) (h : position.Settled script)
    (hw : position.isWaiting = false) (hother : other.isWaiting = false) {fuel more : Nat}
    (hle : fuel ≤ more) : Leads (position.proceed fuel none) (other.proceed more none) := by
  induction hl generalizing fuel with
  | here => exact proceed_leads h hw hle
  | @ahead position other hl ih =>
    have hlast : Leads other (other.proceed more none) :=
      leads_proceed (h.move.leads hl) hother more
    cases fuel with
    | zero =>
      rw [proceed_zero h]
      exact (Leads.ahead hl).trans hlast
    | succ fuel =>
      have hmove := move_of_not_waiting hw
      obtain hends | ⟨hgoes, hrest⟩ := proceed_succ h none
      · rw [hends fuel, ← hmove]
        exact hl.trans hlast
      · rw [hrest fuel, ← hmove]
        exact ih h.move (by rwa [hmove]) hother (Nat.le_of_succ_le hle)

end Position

end StoryScript
