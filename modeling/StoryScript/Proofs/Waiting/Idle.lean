import StoryScript.Proofs.Waiting.Basic

/-! # Inputs that change nothing

While a play waits, an input that does not answer it leaves the whole play as it is. While it
does not wait, every input is as good as none.
-/

namespace StoryScript

namespace Play

variable {play : Play} {input : Option Input}

/-- An input that does not answer what the play waits for leaves the play as it is, for a step as
for an advance, and an input to a play that does not wait is as good as none. -/
structure Ignores (play : Play) (input : Option Input) : Prop where
  unanswered : play.isWaiting = true → play.accepts input = false →
    play.step input = play ∧ (play.step input).status = .continues ∧
      play.advance input = (play, .continues)
  unasked : play.isWaiting = false →
    play.step input = play.step none ∧ play.advance input = play.advance none

/-- If the innermost frame waits, it is outside any chain of branches. -/
def Unchained (play : Play) : Prop :=
  ∀ frame ∈ play.frames.head?, frame.waiting = true → frame.branchTaken = false

theorem unchained_step (hn : play.Nested) (input : Option Input) :
    (play.step input).Unchained := by
  have hstep := proceeds_step hn input
  generalize play.step input = next at hstep ⊢
  cases hstep with
  | unanswered _ _ hf =>
    rintro _ ⟨⟩ _
    rfl
  | @taken frames store cues _ hends =>
    cases hends with
    | asking hasks =>
      intro frame hframe _
      cases frames with
      | nil => cases hframe
      | cons first outer =>
        cases hframe
        exact hasks.2.1
    | quiet hstill =>
      intro frame hframe hw
      have hmem : frame ∈ frames := List.mem_of_mem_head? hframe
      exact absurd hw (by simpa using List.any_eq_false.1 hstill frame hmem)

theorem unchained_run (script : List Command) (stepLimit : Nat) (operations : List Operation) :
    ((start script stepLimit).run operations).Unchained := by
  have hstart (script : List Command) (stepLimit : Nat) : (start script stepLimit).Unchained := by
    rintro _ ⟨⟩ h
    cases h
  refine (run_induction (P := fun play => play.Nested ∧ play.Unchained) ?_ ?_ ?_ ?_ _
    ⟨nested_start script stepLimit, hstart script stepLimit⟩ operations).2
  · exact fun play input h => ⟨h.1.step input, unchained_step h.1 input⟩
  · exact fun play _ => ⟨Stack.start play.script, hstart play.script play.stepLimit⟩
  · exact fun _ _ h => h
  · exact fun _ _ h => h

theorem step_of_not_accepts (hn : play.Nested) (hu : play.Unchained) (hw : play.isWaiting = true)
    (ha : play.accepts input = false) : play.step input = play := by
  have hstep := proceeds_step hn input
  generalize play.step input = next at hstep ⊢
  cases hstep with
  | @unanswered frame outer _ _ hf =>
    have hwaiting : frame.waiting = true := by
      rw [Nested, hf] at hn
      rwa [isWaiting, hf, hn.any_waiting] at hw
    have hchain : frame.endChain = frame := by
      unfold Frame.endChain
      rw [← hu frame (by rw [hf]; rfl) hwaiting]
    rw [hchain, ← hf]
  | taken hsame => simp [hw, ha] at hsame

theorem status_of_isWaiting (hw : play.isWaiting = true) : play.status = .continues := by
  unfold status isFinished
  cases hf : play.frames with
  | nil => simp [isWaiting, hf] at hw
  | cons frame outer => rfl

theorem advanceWithin_of_not_accepts (steps : Nat) (hn : play.Nested) (hu : play.Unchained)
    (hw : play.isWaiting = true) (ha : play.accepts input = false) :
    play.advanceWithin steps input = (play, .continues) := by
  cases steps with
  | zero => rfl
  | succ steps =>
    simp only [advanceWithin, step_of_not_accepts hn hu hw ha, hw, Bool.or_true, ite_true,
      status_of_isWaiting hw]

theorem advanceWithin_of_not_waiting (steps : Nat) (hn : play.Nested)
    (hw : play.isWaiting = false) :
    play.advanceWithin steps input = play.advanceWithin steps none := by
  cases steps with
  | zero => rfl
  | succ steps => simp only [advanceWithin, step_of_not_waiting hn hw]

end Play

/-- In every run, inputs that answer nothing are ignored. -/
theorem ignores_of_run (script : List Command) (stepLimit : Nat) (operations : List Operation)
    (input : Option Input) : ((Play.start script stepLimit).run operations).Ignores input := by
  have hn := (Play.nested_start script stepLimit).run operations
  have hu := Play.unchained_run script stepLimit operations
  constructor
  · intro hw ha
    have hstep := Play.step_of_not_accepts hn hu hw ha
    refine ⟨hstep, ?_, Play.advanceWithin_of_not_accepts _ hn hu hw ha⟩
    rw [hstep, Play.status_of_isWaiting hw]
  · intro hw
    exact ⟨Play.step_of_not_waiting hn hw, Play.advanceWithin_of_not_waiting _ hn hw⟩

def detour : List Command :=
  [.ifBranch "True" [.menu [⟨"stay", []⟩, ⟨"leave", [.finish]⟩]], .elseBranch [.unsupported]]

theorem ignores_detour :
    ((Play.start detour 0).run [.step none, .step none]).isWaiting = true ∧
      ((Play.start detour 0).run [.step none, .step none, .step (some (.choose 2))]).isWaiting =
        true ∧
      ((Play.start detour 0).run [.step none, .step none]).step (some (.choose 2)) =
        (Play.start detour 0).run [.step none, .step none] := by
  have hw : ((Play.start detour 0).run [.step none, .step none]).isWaiting = true := by
    decide +kernel
  have ha : ((Play.start detour 0).run [.step none, .step none]).accepts (some (.choose 2)) =
      false := by decide +kernel
  have hsame :=
    (ignores_of_run detour 0 [.step none, .step none] (some (.choose 2))).unanswered hw ha
  refine ⟨hw, ?_, hsame.1⟩
  have hrun : (Play.start detour 0).run [.step none, .step none, .step (some (.choose 2))] =
      (Play.start detour 0).run [.step none, .step none] := hsame.1
  rw [hrun, hw]

end StoryScript
