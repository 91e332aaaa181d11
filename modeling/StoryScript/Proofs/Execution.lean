import StoryScript.Play.Basic

/-! # What executing a command can do

The execution of a frame's current command has one of a few forms, listed here once with
their conditions. Everything that holds of all executions is proved by cases on the form.
-/

namespace StoryScript

namespace Command

def bodies : Command → List (List Command)
  | label _ body => [body]
  | menu choices => choices.map (·.body)
  | ifBranch _ body => [body]
  | elifBranch _ body => [body]
  | elseBranch body => [body]
  | _ => []

def waits : Command → Bool
  | dialogue .. => true
  | menu choices => !choices.isEmpty
  | _ => false

/-- Whether a command goes on with the chain of branches before it. -/
def continuesChain : Command → Bool
  | elifBranch .. => true
  | elseBranch .. => true
  | _ => false

def openBody? (store : Store) : Command → Option (List Command)
  | ifBranch condition body => if Condition.evaluate store.get? condition then some body else none
  | elifBranch condition body =>
    if Condition.evaluate store.get? condition then some body else none
  | elseBranch body => some body
  | _ => none

/-- Whether a command is passed at once, whatever it does to the store. -/
def isPlain : Command → Bool
  | scene .. => true
  | strayChoice .. => true
  | define .. => true
  | playMusic .. => true
  | stopMusic .. => true
  | showImage .. => true
  | hideImage .. => true
  | pause .. => true
  | unsupported => true
  | _ => false

def act (store : Store) : Command → Store × List Cue
  | scene image transition => (store, [.scene image transition])
  | define name value definition =>
    match Assignment.ofDefinition? name value definition with
    | some assignment => (store.assign assignment, [.assign assignment])
    | none => (store, [])
  | playMusic file fadeIn => (store, [.playMusic file fadeIn])
  | stopMusic fadeOut => (store, [.stopMusic fadeOut])
  | showImage image position transition => (store, [.showImage image position transition])
  | hideImage image transition => (store, [.hideImage image transition])
  | pause duration => (store, [.pause duration])
  | _ => (store, [])

@[simp] theorem isBranch_of_continuesChain {command : Command} (h : command.continuesChain) :
    command.isBranch := by
  cases command <;> simp_all [continuesChain, isBranch]

theorem isBranch_of_openBody? {store : Store} {command : Command} {body : List Command}
    (h : command.openBody? store = some body) : command.isBranch = true := by
  cases command <;> simp_all [openBody?, isBranch]

theorem mem_bodies_of_openBody? {store : Store} {command : Command} {body : List Command}
    (h : command.openBody? store = some body) : body ∈ command.bodies := by
  cases command <;> simp_all [openBody?, bodies]

end Command

namespace Frame

def endChain (frame : Frame) : Frame :=
  { frame with branchTaken := false }

def takeBranch (frame : Frame) : Frame :=
  { frame with branchTaken := true }

def answered (frame : Frame) : Frame :=
  { frame with waiting := false }

def asking (frame : Frame) : Frame :=
  { frame with waiting := true }

end Frame

namespace Execution

variable {store : Store} {input : Option Input} {frame : Frame} {outer : List Frame}

/-- The forms that the execution of the innermost frame's current command can have. -/
inductive Executes (store : Store) (input : Option Input) (frame : Frame) (outer : List Frame) :
    Execution → Prop
  | atEnd : frame.current? = none → Executes store input frame outer (rest (frame :: outer) store)
  | plain {command} : frame.current? = some command → command.isPlain = true →
      Executes store input frame outer
        (next frame.endChain outer (command.act store).1 (command.act store).2)
  | label {name body} : frame.current? = some (.label name body) →
      Executes store input frame outer (enter frame.endChain outer body)
  | shown {speaker text} : frame.current? = some (.dialogue speaker text) →
      frame.waiting = false →
      Executes store input frame outer
        (wait frame.endChain outer store (.speech (speaker.map store.speaker) text))
  | dismissed {speaker text answer} : frame.current? = some (.dialogue speaker text) →
      frame.waiting = true → input = some answer →
      Executes store input frame outer (next frame.endChain.answered outer store [])
  | kept {speaker text} : frame.current? = some (.dialogue speaker text) →
      frame.waiting = true → input = none →
      Executes store input frame outer (rest (frame.endChain :: outer) store)
  | emptyMenu : frame.current? = some (.menu []) →
      Executes store input frame outer (next frame.endChain outer store [])
  | offered {choices} : frame.current? = some (.menu choices) → choices ≠ [] →
      frame.waiting = false →
      Executes store input frame outer
        (wait frame.endChain outer store (.choices (choices.map (·.prompt))))
  | chosen {choices index choice} : frame.current? = some (.menu choices) → choices ≠ [] →
      frame.waiting = true → input = some (.choose index) → choices[index]? = some choice →
      Executes store input frame outer (enter frame.endChain.answered outer choice.body)
  | declined {choices} : frame.current? = some (.menu choices) → choices ≠ [] →
      frame.waiting = true → (∀ index, input = some (.choose index) → choices[index]? = none) →
      Executes store input frame outer (rest (frame.endChain :: outer) store)
  | skipped {command} : frame.current? = some command → command.continuesChain = true →
      frame.branchTaken = true → Executes store input frame outer (next frame outer store [])
  | opened {command body} : frame.current? = some command → command.openBody? store = some body →
      (command.continuesChain = true → frame.branchTaken = false) →
      Executes store input frame outer (enter frame.takeBranch outer body)
  | failed {command} : frame.current? = some command → command.isBranch = true →
      command.openBody? store = none →
      (command.continuesChain = true → frame.branchTaken = false) →
      Executes store input frame outer (next frame.endChain outer store [])
  | jumped {name frames} : frame.current? = some (.jump name) →
      Frame.jump? name (frame.endChain :: outer) = some frames →
      Executes store input frame outer (.descend frames)
  | strayJump {name} : frame.current? = some (.jump name) →
      Frame.jump? name (frame.endChain :: outer) = none →
      Executes store input frame outer (next frame.endChain outer store [])
  | finished : frame.current? = some .finish → Executes store input frame outer (rest [] store)

theorem command_of_isPlain {command : Command} (h : command.isPlain = true) :
    Execution.command store input frame outer command =
      next frame outer (command.act store).1 (command.act store).2 := by
  cases command <;> simp_all only [Command.isPlain, Bool.false_eq_true, Execution.command,
    Command.act]
  case define name value definition =>
    unfold define
    cases Assignment.ofDefinition? name value definition <;> rfl

theorem executes_dialogue {speaker : Option String} {text : String}
    (h : frame.current? = some (.dialogue speaker text)) :
    Executes store input frame outer (dialogue frame.endChain outer store input speaker text) := by
  unfold dialogue
  cases hw : frame.endChain.waiting with
  | false => exact .shown h hw
  | true =>
    cases input with
    | none => exact .kept h hw rfl
    | some answer => exact .dismissed h hw rfl

theorem executes_menu {choices : List (Choice Command)}
    (h : frame.current? = some (.menu choices)) :
    Executes store input frame outer (menu frame.endChain outer store input choices) := by
  unfold menu
  cases choices with
  | nil => exact .emptyMenu h
  | cons first choices =>
    have hne : first :: choices ≠ [] := List.cons_ne_nil _ _
    cases hw : frame.endChain.waiting with
    | false => exact .offered h hne hw
    | true =>
      match input with
      | none => exact .declined h hne hw (by simp)
      | some .proceed => exact .declined h hne hw (by simp)
      | some (.choose index) =>
        cases hc : (first :: choices)[index]? with
        | none =>
          simp only [List.isEmpty_cons, Bool.false_eq_true, ite_false, ite_true, hc]
          refine .declined h hne hw ?_
          rintro _ ⟨⟩
          exact hc
        | some choice =>
          simp only [List.isEmpty_cons, Bool.false_eq_true, ite_false, ite_true, hc]
          exact .chosen h hne hw rfl hc

theorem executes_jump {name : String} (h : frame.current? = some (.jump name)) :
    Executes store input frame outer (jump frame.endChain outer store name) := by
  unfold jump
  cases hj : Frame.jump? name (frame.endChain :: outer) with
  | none => exact .strayJump h hj
  | some frames => exact .jumped h hj

theorem executes_branch {command : Command} (h : frame.current? = some command)
    (hb : command.isBranch = true) :
    Executes store input frame outer (Execution.command store input frame outer command) := by
  have hpassed : frame.branchTaken = false → frame.endChain = frame := by
    intro ht
    unfold Frame.endChain
    rw [← ht]
  cases command <;> simp only [Command.isBranch, Bool.false_eq_true] at hb
  case ifBranch condition body =>
    simp only [Execution.command, branch]
    split
    · rename_i hc
      exact .opened h (by simp [Command.openBody?, hc]) (by simp [Command.continuesChain])
    · rename_i hc
      exact .failed h rfl (by simp [Command.openBody?, hc]) (by simp [Command.continuesChain])
  case elifBranch condition body =>
    simp only [Execution.command, branch]
    split
    · rename_i ht
      exact .skipped h rfl ht
    · rename_i ht
      rw [Bool.not_eq_true] at ht
      split
      · rename_i hc
        exact .opened h (by simp [Command.openBody?, hc]) fun _ => ht
      · rename_i hc
        rw [show next frame outer store [] = next frame.endChain outer store [] by rw [hpassed ht]]
        exact .failed h rfl (by simp [Command.openBody?, hc]) fun _ => ht
  case elseBranch body =>
    simp only [Execution.command]
    split
    · rename_i ht
      exact .skipped h rfl ht
    · rename_i ht
      rw [Bool.not_eq_true] at ht
      exact .opened h rfl fun _ => ht

theorem ofFrames_of_isBranch {command : Command} (h : frame.current? = some command)
    (hb : command.isBranch = true) :
    ofFrames store input (frame :: outer) = Execution.command store input frame outer command := by
  simp only [ofFrames, h, hb, ite_true]

theorem ofFrames_of_not_isBranch {command : Command} (h : frame.current? = some command)
    (hb : command.isBranch = false) :
    ofFrames store input (frame :: outer) =
      Execution.command store input frame.endChain outer command := by
  simp only [ofFrames, h, hb, Bool.false_eq_true, ite_false, Frame.endChain]

theorem executes_ofFrames :
    Executes store input frame outer (ofFrames store input (frame :: outer)) := by
  cases h : frame.current? with
  | none =>
    simp only [ofFrames, h]
    exact .atEnd h
  | some current =>
    cases hb : current.isBranch with
    | true =>
      rw [ofFrames_of_isBranch h hb]
      exact executes_branch h hb
    | false =>
      rw [ofFrames_of_not_isBranch h hb]
      cases hp : current.isPlain with
      | true =>
        rw [command_of_isPlain hp]
        exact .plain h hp
      | false =>
        cases current <;> simp only [Command.isPlain, Command.isBranch, Bool.true_eq_false] at hp hb
        case label name body => exact .label h
        case dialogue speaker text => exact executes_dialogue h
        case menu choices => exact executes_menu h
        case jump name => exact executes_jump h
        case finish => exact .finished h

end Execution

end StoryScript
