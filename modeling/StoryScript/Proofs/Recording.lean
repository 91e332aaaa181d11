import StoryScript.Proofs.Operation

/-! # Recordings

A recording advances a play until it is over, finds no choice left, or neither waits nor ends. Each
advance after the first one takes the next choice or reads the line on display. Further turns do not
change how a recording ends, and what every advance preserves holds at its end.
-/

namespace StoryScript

namespace Play

/-- A play is recorded to a final play within a number of turns, given the choices that are left
and the input to the next advance. -/
inductive Records :
    (turns : Nat) → Play → List Nat → Option Input → (result : Play × Ending) → Prop
  | finished {turns play choices input next} (hadvance : play.advance input = (next, .done)) :
      Records (turns + 1) play choices input (next, .finished)
  | usedUp {turns play input next} (hadvance : play.advance input = (next, .continues))
      (hawaits : next.awaitsChoice = true) :
      Records (turns + 1) play [] input (next, .choicesUsedUp)
  | chosen {turns play index choices input next result}
      (hadvance : play.advance input = (next, .continues)) (hawaits : next.awaitsChoice = true)
      (hlater : Records turns next choices (some (.choose index)) result) :
      Records (turns + 1) play (index :: choices) input result
  | read {turns play choices input next result}
      (hadvance : play.advance input = (next, .continues)) (hawaits : next.awaitsChoice = false)
      (hwaits : next.isWaiting = true)
      (hlater : Records turns next choices (some .proceed) result) :
      Records (turns + 1) play choices input result
  | cutShort {turns play choices input next} (hadvance : play.advance input = (next, .continues))
      (hawaits : next.awaitsChoice = false) (hwaits : next.isWaiting = false) :
      Records (turns + 1) play choices input (next, .cutShort)

variable {turns turns' : Nat} {play : Play} {choices : List Nat} {input : Option Input}
  {result : Play × Ending}

theorem records_of_recordWithin (h : play.recordWithin turns choices input = some result) :
    Records turns play choices input result := by
  induction turns generalizing play choices input with
  | zero => cases h
  | succ turns ih =>
    rw [recordWithin] at h
    split at h
    · rename_i hadvance
      cases h
      exact .finished hadvance
    · rename_i next hadvance
      cases hawaits : next.awaitsChoice with
      | true =>
        rw [if_pos hawaits] at h
        cases choices with
        | nil =>
          cases h
          exact .usedUp hadvance hawaits
        | cons index choices => exact .chosen hadvance hawaits (ih h)
      | false =>
        rw [if_neg (Bool.eq_false_iff.1 hawaits)] at h
        cases hwaits : next.isWaiting with
        | true =>
          rw [if_pos hwaits] at h
          exact .read hadvance hawaits hwaits (ih h)
        | false =>
          rw [if_neg (Bool.eq_false_iff.1 hwaits)] at h
          cases h
          exact .cutShort hadvance hawaits hwaits

theorem Records.recordWithin_eq (h : Records turns play choices input result) :
    play.recordWithin turns choices input = some result := by
  induction h with
  | finished hadvance => simp only [recordWithin, hadvance]
  | usedUp hadvance hawaits => simp only [recordWithin, hadvance, hawaits, ite_true]
  | chosen hadvance hawaits _ ih => simp only [recordWithin, hadvance, hawaits, ite_true, ih]
  | read hadvance hawaits hwaits _ ih =>
    simp only [recordWithin, hadvance, hawaits, hwaits, Bool.false_eq_true, ite_false, ite_true, ih]
  | cutShort hadvance hawaits hwaits =>
    simp only [recordWithin, hadvance, hawaits, hwaits, Bool.false_eq_true, ite_false]

theorem Records.succ (h : Records turns play choices input result) :
    Records (turns + 1) play choices input result := by
  induction h with
  | finished hadvance => exact .finished hadvance
  | usedUp hadvance hawaits => exact .usedUp hadvance hawaits
  | chosen hadvance hawaits _ ih => exact .chosen hadvance hawaits ih
  | read hadvance hawaits hwaits _ ih => exact .read hadvance hawaits hwaits ih
  | cutShort hadvance hawaits hwaits => exact .cutShort hadvance hawaits hwaits

theorem Records.mono (h : Records turns play choices input result) (hle : turns ≤ turns') :
    Records turns' play choices input result := by
  induction hle with
  | refl => exact h
  | step _ ih => exact ih.succ

theorem Records.after_choice {index : Nat} {next : Play}
    (h : Records turns play (index :: choices) input result)
    (hadvance : play.advance input = (next, .continues)) (hawaits : next.awaitsChoice = true) :
    ∃ fewer, Records fewer next choices (some (.choose index)) result := by
  cases h with
  | finished hadvance' => cases hadvance.symm.trans hadvance'
  | chosen hadvance' _ hlater =>
    cases hadvance.symm.trans hadvance'
    exact ⟨_, hlater⟩
  | read hadvance' hawaits' | cutShort hadvance' hawaits' =>
    cases hadvance.symm.trans hadvance'
    cases hawaits.symm.trans hawaits'

theorem Records.after_line {next : Play} (h : Records turns play choices input result)
    (hadvance : play.advance input = (next, .continues)) (hawaits : next.awaitsChoice = false)
    (hwaits : next.isWaiting = true) :
    ∃ fewer, Records fewer next choices (some .proceed) result := by
  cases h with
  | finished hadvance' => cases hadvance.symm.trans hadvance'
  | usedUp hadvance' hawaits' | chosen hadvance' hawaits' =>
    cases hadvance.symm.trans hadvance'
    cases hawaits.symm.trans hawaits'
  | read hadvance' _ _ hlater =>
    cases hadvance.symm.trans hadvance'
    exact ⟨_, hlater⟩
  | cutShort hadvance' _ hwaits' =>
    cases hadvance.symm.trans hadvance'
    cases hwaits.symm.trans hwaits'

/-- What every advance preserves holds at the end of a recording, if it holds after the first
advance. -/
theorem Records.induction {P : Play → Prop}
    (hkeep : ∀ play input, P play → P (play.advance input).1)
    (h : Records turns play choices input result) (hfirst : P (play.advance input).1) :
    P result.1 := by
  induction h with
  | finished hadvance | usedUp hadvance | cutShort hadvance =>
    rw [hadvance] at hfirst
    exact hfirst
  | chosen hadvance _ _ ih | read hadvance _ _ _ ih =>
    rw [hadvance] at hfirst
    exact ih (hkeep _ _ hfirst)

end Play

end StoryScript
