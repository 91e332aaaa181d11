import StoryScript.Transcript

/-! # Runs of a play

A host steps, advances and restarts a play and changes its store, in any order. What steps,
restarts and changes of the store preserve holds after every run.
-/

namespace StoryScript

/-- What a host can do with a play. -/
inductive Operation where
  | step (input : Option Input)
  | advance (input : Option Input)
  | restart
  | assign (assignment : Assignment)
  /-- The store is replaced by another one, without a cue. -/
  | replaceStore (store : Store)
deriving Repr

namespace Play

def perform (play : Play) : Operation → Play
  | .step input => play.step input
  | .advance input => (play.advance input).1
  | .restart => play.restart
  | .assign assignment => play.assign assignment
  | .replaceStore store => { play with store := store }

def run (play : Play) (operations : List Operation) : Play :=
  operations.foldl perform play

@[simp] theorem run_nil (play : Play) : play.run [] = play := rfl

@[simp] theorem run_cons (play : Play) (operation : Operation) (operations : List Operation) :
    play.run (operation :: operations) = (play.perform operation).run operations := rfl

variable {P : Play → Prop}

theorem advanceWithin_induction (hstep : ∀ play input, P play → P (play.step input)) (steps : Nat)
    (play : Play) (input : Option Input) (h : P play) : P (advanceWithin steps play input).1 := by
  induction steps generalizing play input with
  | zero => exact h
  | succ steps ih =>
    simp only [advanceWithin]
    split
    · exact hstep play input h
    · exact ih _ none (hstep play input h)

theorem frames_of_done {play final : Play} {steps : Nat} {input : Option Input}
    (h : play.advanceWithin steps input = (final, .done)) : final.frames = [] := by
  induction steps generalizing play input with
  | zero => cases h
  | succ steps ih =>
    simp only [advanceWithin] at h
    split at h
    · obtain ⟨rfl, hstatus⟩ := Prod.mk.inj h
      unfold status at hstatus
      split at hstatus
      · exact List.isEmpty_iff.1 ‹_›
      · cases hstatus
    · exact ih h

theorem run_induction (hstep : ∀ play input, P play → P (play.step input))
    (hrestart : ∀ play, P play → P play.restart)
    (hassign : ∀ play assignment, P play → P (play.assign assignment))
    (hreplace : ∀ (play : Play) store, P play → P { play with store := store })
    (play : Play) (h : P play) (operations : List Operation) : P (play.run operations) := by
  induction operations generalizing play with
  | nil => exact h
  | cons operation operations ih =>
    apply ih
    cases operation with
    | step input => exact hstep play input h
    | advance input => exact advanceWithin_induction hstep play.stepLimit play input h
    | restart => exact hrestart play h
    | assign assignment => exact hassign play assignment h
    | replaceStore store => exact hreplace play store h

end Play

end StoryScript
