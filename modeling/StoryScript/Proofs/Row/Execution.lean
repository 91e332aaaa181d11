import StoryScript.Proofs.Row.Basic

/-! # Executing commands by number

A command can be executed on a row of frames, where every access goes by number and may fail.
On the row of nested frames it does not fail, and the result is that of the execution on the
frames themselves.
-/

namespace StoryScript

namespace Cell

def endChain (cell : Cell) : Cell :=
  { cell with branchTaken := false }

def takeBranch (cell : Cell) : Cell :=
  { cell with branchTaken := true }

def answered (cell : Cell) : Cell :=
  { cell with waiting := false }

def asking (cell : Cell) : Cell :=
  { cell with waiting := true }

end Cell

namespace Row

/-- The result of executing a command on a row of frames. -/
inductive Move where
  | descend (row : Row)
  | stop (row : Row) (store : Store) (cues : List Cue)

namespace Move

def ofExecution : Execution → Move
  | .descend frames => .descend (ofFrames frames)
  | .stop outcome => .stop (ofFrames outcome.frames) outcome.store outcome.cues

def pass? (row : Row) (top : Nat) (store : Store) (cues : List Cue) : Option Move := do
  return .stop (← row.update? top (·.next)) store cues

def dialogue? (row : Row) (top : Nat) (store : Store) (input : Option Input)
    (speaker : Option String) (text : String) : Option Move := do
  let cell ← row[top]?
  if cell.waiting then
    match input with
    | some _ => pass? (← row.update? top (·.answered)) top store []
    | none => some (.stop row store [])
  else
    return .stop (← row.update? top (·.asking)) store [.speech (speaker.map store.speaker) text]

def menu? (row : Row) (top : Nat) (store : Store) (input : Option Input)
    (choices : List (Choice Command)) : Option Move := do
  if choices.isEmpty then pass? row top store []
  else
    let cell ← row[top]?
    if cell.waiting then
      match input with
      | some (.choose index) =>
        match choices[index]? with
        | some choice => return .descend (enter (← row.update? top (·.answered)) choice.body)
        | none => some (.stop row store [])
      | _ => some (.stop row store [])
    else return .stop (← row.update? top (·.asking)) store [.choices (choices.map (·.prompt))]

def branch? (row : Row) (top : Nat) (store : Store) (command : Command) : Option Move := do
  let cell ← row[top]?
  if command.continuesChain && cell.branchTaken then pass? row top store []
  else
    match command.openBody? store with
    | some body => return .descend (enter (← row.update? top (·.takeBranch)) body)
    | none => pass? (← row.update? top (·.endChain)) top store []

def toLabel? (row : Row) (top : Nat) (store : Store) (name : String) : Option Move := do
  match ← row.jump? name row.length (some top) with
  | some found => some (.descend found)
  | none => pass? row top store []

def command? (row : Row) (top : Nat) (store : Store) (input : Option Input) :
    Command → Option Move
  | .label _ body => some (.descend (row.enter body))
  | .dialogue speaker text => dialogue? row top store input speaker text
  | .menu choices => menu? row top store input choices
  | .ifBranch condition body => branch? row top store (.ifBranch condition body)
  | .elifBranch condition body => branch? row top store (.elifBranch condition body)
  | .elseBranch body => branch? row top store (.elseBranch body)
  | .jump name => toLabel? row top store name
  | .finish => some (.stop [] store [])
  | command => pass? row top (command.act store).1 (command.act store).2

def ofRow? (store : Store) (input : Option Input) (row : Row) : Option Move :=
  match before? row.length with
  | none => some (.stop row store [])
  | some top => do
    let cell ← row[top]?
    match cell.current? with
    | none => some (.stop row store [])
    | some command =>
      let row ← if command.isBranch then some row else row.update? top (·.endChain)
      command? row top store input command

def chain? (store : Store) : Nat → Option Input → Row → Option (Row × Store × List Cue)
  | 0, _, row => some (row, store, [])
  | fuel + 1, input, row => do
    match ← ofRow? store input row with
    | .descend row => chain? store fuel none row
    | .stop row store cues => some (row, store, cues)

variable {script : List Command} {frame : Frame} {outer : List Frame} {store : Store}
  {input : Option Input} {command : Command}

theorem getElem?_top (frame : Frame) (outer : List Frame) :
    (ofFrames (frame :: outer))[outer.length]? = some (.ofFrame (before? outer.length) frame) :=
  getElem?_ofFrames [] frame outer

theorem pass?_ofFrames (frame : Frame) (hs : frame.ahead <:+ frame.commands)
    (hc : frame.current? = some command) (cues : List Cue) :
    pass? (ofFrames (frame :: outer)) outer.length store cues =
      some (ofExecution (.next frame outer store cues)) := by
  unfold pass?
  rw [update?_ofFrames (next_ofFrame hs hc)]
  rfl

theorem dialogue?_ofFrames {speaker : Option String} {text : String}
    (hs : frame.ahead <:+ frame.commands) (hc : frame.current? = some command) :
    dialogue? (ofFrames (frame :: outer)) outer.length store input speaker text =
      some (ofExecution (.dialogue frame outer store input speaker text)) := by
  have hanswer : update? (ofFrames (frame :: outer)) outer.length (·.answered) =
      some (ofFrames (frame.answered :: outer)) := update?_ofFrames rfl
  have hask : update? (ofFrames (frame :: outer)) outer.length (·.asking) =
      some (ofFrames (frame.asking :: outer)) := update?_ofFrames rfl
  simp only [dialogue?, getElem?_top, Execution.dialogue, Option.bind_eq_bind, Option.bind_some]
  cases hw : frame.waiting with
  | true =>
    cases input with
    | none => simp [Cell.ofFrame, hw, ofExecution, Execution.rest]
    | some answer =>
      simp only [Cell.ofFrame, hw, ite_true, hanswer, Option.bind_some]
      exact pass?_ofFrames frame.answered hs hc []
  | false =>
    simp only [Cell.ofFrame, hw, Bool.false_eq_true, ite_false, hask, Option.bind_some]
    rfl

theorem menu?_ofFrames {choices : List (Choice Command)} (hs : frame.ahead <:+ frame.commands)
    (hc : frame.current? = some command) :
    menu? (ofFrames (frame :: outer)) outer.length store input choices =
      some (ofExecution (.menu frame outer store input choices)) := by
  have hanswer : update? (ofFrames (frame :: outer)) outer.length (·.answered) =
      some (ofFrames (frame.answered :: outer)) := update?_ofFrames rfl
  have hask : update? (ofFrames (frame :: outer)) outer.length (·.asking) =
      some (ofFrames (frame.asking :: outer)) := update?_ofFrames rfl
  simp only [menu?, getElem?_top, Execution.menu, Option.bind_eq_bind, Option.bind_some]
  split
  · exact pass?_ofFrames frame hs hc []
  · cases hw : frame.waiting with
    | true =>
      simp only [Cell.ofFrame, hw, ite_true]
      rcases input with _ | _ | index
      · rfl
      · rfl
      · cases hi : choices[index]? with
        | none => simp only [hi, ofExecution, Execution.rest]
        | some choice =>
          simp only [hi, hanswer, Option.bind_some, enter_ofFrames]
          rfl
    | false =>
      simp only [Cell.ofFrame, hw, Bool.false_eq_true, ite_false, hask, Option.bind_some]
      rfl

theorem branch?_ofFrames (hs : frame.ahead <:+ frame.commands)
    (hc : frame.current? = some command) (hb : command.isBranch = true) :
    branch? (ofFrames (frame :: outer)) outer.length store command =
      some (ofExecution (.command store input frame outer command)) := by
  have htake : update? (ofFrames (frame :: outer)) outer.length (·.takeBranch) =
      some (ofFrames (frame.takeBranch :: outer)) := update?_ofFrames rfl
  have hend : update? (ofFrames (frame :: outer)) outer.length (·.endChain) =
      some (ofFrames (frame.endChain :: outer)) := update?_ofFrames rfl
  simp only [branch?, getElem?_top, Option.bind_eq_bind, Option.bind_some, Cell.ofFrame]
  split
  · rename_i hskip
    rw [Bool.and_eq_true] at hskip
    have hcommand : Execution.command store input frame outer command =
        .next frame outer store [] := by
      cases command <;> simp_all [Command.continuesChain, Execution.command]
    rw [hcommand]
    exact pass?_ofFrames frame hs hc []
  · rename_i hskip
    have htaken : command.continuesChain = true → frame.branchTaken = false := by
      intro hk
      simpa [hk] using hskip
    cases ho : command.openBody? store with
    | some body =>
      have hcommand : Execution.command store input frame outer command =
          .enter frame.takeBranch outer body := by
        cases command <;> simp_all [Command.continuesChain, Command.openBody?, Execution.command,
          Execution.branch, Frame.takeBranch]
      simp only [htake, Option.bind_some, enter_ofFrames, hcommand]
      rfl
    | none =>
      have hcommand : Execution.command store input frame outer command =
          .next frame.endChain outer store [] := by
        have hended : frame.branchTaken = false → frame.endChain = frame := by
          intro ht
          rw [Frame.endChain, ← ht]
        cases command <;> simp_all [Command.continuesChain, Command.openBody?, Execution.command,
          Execution.branch, Command.isBranch]
        rfl
      simp only [hend, Option.bind_some, hcommand]
      exact pass?_ofFrames frame.endChain hs hc []

theorem toLabel?_ofFrames {name : String} (hs : frame.ahead <:+ frame.commands)
    (hc : frame.current? = some command) :
    toLabel? (ofFrames (frame :: outer)) outer.length store name =
      some (ofExecution (.jump frame outer store name)) := by
  have hjump := jump?_ofFrames name [] (frame :: outer) (Nat.le_refl _)
  rw [List.nil_append, List.length_cons, before?] at hjump
  simp only [toLabel?, length_ofFrames, List.length_cons, hjump, Execution.jump,
    Option.bind_eq_bind, Option.bind_some]
  cases Frame.jump? name (frame :: outer) with
  | some found => rfl
  | none => exact pass?_ofFrames frame hs hc []

theorem command?_ofFrames (frame : Frame) (hs : frame.ahead <:+ frame.commands)
    (hc : frame.current? = some command) :
    command? (ofFrames (frame :: outer)) outer.length store input command =
      some (ofExecution (.command store input frame outer command)) := by
  cases hp : command.isPlain with
  | true =>
    rw [Execution.command_of_isPlain hp]
    have hpass : command? (ofFrames (frame :: outer)) outer.length store input command =
        pass? (ofFrames (frame :: outer)) outer.length (command.act store).1
          (command.act store).2 := by
      cases command <;> first | rfl | simp [Command.isPlain] at hp
    rw [hpass]
    exact pass?_ofFrames frame hs hc _
  | false =>
    cases command <;> simp only [Command.isPlain, Bool.true_eq_false] at hp
    case label name body => simp only [command?, enter_ofFrames, Execution.command]; rfl
    case dialogue speaker text => exact dialogue?_ofFrames hs hc
    case menu choices => exact menu?_ofFrames hs hc
    case ifBranch condition body => exact branch?_ofFrames hs hc rfl
    case elifBranch condition body => exact branch?_ofFrames hs hc rfl
    case elseBranch body => exact branch?_ofFrames hs hc rfl
    case jump name => exact toLabel?_ofFrames hs hc
    case finish => rfl

/-- On nested frames an execution by number succeeds and is the execution itself. -/
theorem ofRow?_ofFrames {frames : List Frame} (h : Stack script frames) :
    ofRow? store input (ofFrames frames) =
      some (ofExecution (Execution.ofFrames store input frames)) := by
  cases h with
  | ended => rfl
  | @walking frame outer hs _ _ =>
    simp only [ofRow?, length_ofFrames, List.length_cons, before?, getElem?_top,
      Option.bind_eq_bind, Option.bind_some, current?_ofFrame hs]
    cases hc : frame.current? with
    | none => simp only [Execution.ofFrames, hc]; rfl
    | some command =>
      cases hb : command.isBranch with
      | true =>
        rw [Execution.ofFrames_of_isBranch hc hb]
        simp only [hb, ite_true]
        exact command?_ofFrames frame hs hc
      | false =>
        have hend : update? (ofFrames (frame :: outer)) outer.length (·.endChain) =
            some (ofFrames (frame.endChain :: outer)) := update?_ofFrames rfl
        rw [Execution.ofFrames_of_not_isBranch hc hb]
        simp only [hb, Bool.false_eq_true, ite_false, hend, Option.bind_some]
        exact command?_ofFrames frame.endChain hs hc

end Move

end Row

end StoryScript
