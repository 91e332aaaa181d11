import StoryScript.Proofs.Row.Execution

/-! # Plays by number

A whole play can be carried out on a row of frames. No access by number fails in any run, and
the play goes through the same frames, store and cues. Each frame is linked to the one before
it, only the last one waits, and the bodies nested in the script bound the length of the row.
-/

namespace StoryScript

namespace Row

open Move

/-- A play on a row of frames. -/
structure Walk where
  script : List Command
  stepLimit : Nat
  row : Row
  store : Store
  log : List Cue

namespace Walk

def start (script : List Command) (stepLimit : Nat) : Walk :=
  ⟨script, stepLimit, [.start script none], ∅, []⟩

def ofPlay (play : Play) : Walk :=
  ⟨play.script, play.stepLimit, ofFrames play.frames, play.store, play.log⟩

def isWaiting (walk : Walk) : Bool :=
  walk.row.any (·.waiting)

def step? (walk : Walk) (input : Option Input) : Option Walk := do
  let walk := { walk with row := ← settle? (walk.row.length + 1) walk.row }
  let input := if walk.isWaiting then input else none
  let (row, store, cues) ← chain? walk.store (max walk.stepLimit 1) input walk.row
  let row ← settle? (row.length + 1) row
  return { walk with row := row, store := store, log := cues.reverse ++ walk.log }

def midway? (walk : Walk) (commands : Nat) (input : Option Input) : Option Row := do
  let row ← settle? (walk.row.length + 1) walk.row
  let (row, _, _) ← chain? walk.store commands input row
  return row

def advanceWithin? : Nat → Walk → Option Input → Option Walk
  | 0, walk, _ => some walk
  | steps + 1, walk, input => do
    let walk ← walk.step? input
    if walk.row.isEmpty || walk.isWaiting then some walk else advanceWithin? steps walk none

def perform? (walk : Walk) : Operation → Option Walk
  | .step input => walk.step? input
  | .advance input => walk.advanceWithin? walk.stepLimit input
  | .restart => some { walk with row := [.start walk.script none], store := ∅ }
  | .assign assignment =>
    some { walk with
      store := walk.store.assign assignment
      log := .assign assignment :: walk.log }
  | .replaceStore store => some { walk with store := store }

def run? (walk : Walk) (operations : List Operation) : Option Walk :=
  operations.foldlM perform? walk

end Walk

/-- A row in which each frame walks a body of the command at which the frame before it stands
and is linked to that frame, and in which only the last frame waits, for what its command
needs. -/
structure Linked (script : List Command) (row : Row) : Prop where
  outermost : ∀ cell, row[0]? = some cell → cell.commands = script ∧ cell.parent = none
  inside : ∀ number cell inner, row[number]? = some cell → row[number + 1]? = some inner →
    inner.parent = some number ∧
      ∃ command, cell.current? = some command ∧ inner.commands ∈ command.bodies
  waits : ∀ number cell, row[number]? = some cell → cell.waiting = true →
    number + 1 = row.length ∧ ∃ command, cell.current? = some command ∧ command.waits = true

variable {script : List Command} {frames : List Frame} {store : Store} {input : Option Input}

theorem settle?_settle (h : Stack script frames) :
    settle? ((ofFrames frames).length + 1) (ofFrames frames) =
      some (ofFrames (Frame.settle frames)) := by
  cases frames with
  | nil => rfl
  | cons frame outer => exact settle?_ofFrames h (by simp)

theorem ofFrames_start (script : List Command) : ofFrames [.start script] = [.start script none] :=
  (enter_ofFrames [] script).symm

theorem chain?_ofFrames (fuel : Nat) (h : Stack script frames) :
    chain? store fuel input (ofFrames frames) =
      some (ofFrames (Execution.chain store fuel input frames).frames,
        (Execution.chain store fuel input frames).store,
        (Execution.chain store fuel input frames).cues) := by
  induction fuel generalizing input frames with
  | zero => rfl
  | succ fuel ih =>
    rw [chain?, ofRow?_ofFrames h, Execution.chain]
    cases he : Execution.ofFrames store input frames with
    | stop outcome => rfl
    | descend found =>
      have hfound : Stack script (Execution.ofFrames store input frames).frames :=
        Execution.stack_ofFrames h
      rw [he] at hfound
      exact ih hfound

theorem any_waiting_ofFrames (frames : List Frame) :
    (ofFrames frames).any (·.waiting) = frames.any (·.waiting) := by
  induction frames with
  | nil => rfl
  | cons frame outer ih => simp [ofFrames, ih, Cell.ofFrame, Bool.or_comm]

namespace Walk

theorem isWaiting_ofPlay (play : Play) : (ofPlay play).isWaiting = play.isWaiting :=
  any_waiting_ofFrames play.frames

theorem step?_ofPlay {play : Play} (h : play.Nested) (input : Option Input) :
    (ofPlay play).step? input = some (ofPlay (play.step input)) := by
  have hsettled : Stack play.script (Frame.settle play.frames) := h.settle
  have hwaiting : isWaiting ⟨play.script, play.stepLimit, ofFrames (Frame.settle play.frames),
      play.store, play.log⟩ = play.settle.isWaiting := isWaiting_ofPlay play.settle
  unfold step?
  simp only [ofPlay, settle?_settle h, Option.bind_eq_bind, Option.bind_some, hwaiting,
    chain?_ofFrames _ hsettled, settle?_settle (Execution.stack_chain _ hsettled)]
  rfl

theorem midway?_ofPlay {play : Play} (h : play.Nested) (commands : Nat) (input : Option Input) :
    (ofPlay play).midway? commands input =
      some (ofFrames
        (Execution.chain play.store commands input (Frame.settle play.frames)).frames) := by
  have hsettled : Stack play.script (Frame.settle play.frames) := h.settle
  simp only [midway?, ofPlay, settle?_settle h, Option.bind_eq_bind, Option.bind_some,
    chain?_ofFrames _ hsettled]
  rfl

theorem advanceWithin?_ofPlay (steps : Nat) {play : Play} (h : play.Nested)
    (input : Option Input) :
    (ofPlay play).advanceWithin? steps input =
      some (ofPlay (play.advanceWithin steps input).1) := by
  induction steps generalizing play input with
  | zero => rfl
  | succ steps ih =>
    have hover : (ofPlay (play.step input)).row.isEmpty = (play.step input).isFinished := by
      cases hf : (play.step input).frames <;> simp [ofPlay, Play.isFinished, ofFrames, hf]
    simp only [advanceWithin?, step?_ofPlay h, Option.bind_eq_bind, Option.bind_some, hover,
      isWaiting_ofPlay, Play.advanceWithin]
    split
    · rfl
    · exact ih (h.step input) none

theorem perform?_ofPlay {play : Play} (h : play.Nested) (operation : Operation) :
    (ofPlay play).perform? operation = some (ofPlay (play.perform operation)) := by
  cases operation with
  | step input => exact step?_ofPlay h input
  | advance input => exact advanceWithin?_ofPlay play.stepLimit h input
  | restart => simp only [perform?, ofPlay, Play.perform, Play.restart, ofFrames_start]
  | assign assignment => rfl
  | replaceStore store => rfl

theorem run?_ofPlay {play : Play} (h : play.Nested) (operations : List Operation) :
    (ofPlay play).run? operations = some (ofPlay (play.run operations)) := by
  induction operations generalizing play with
  | nil => rfl
  | cons operation operations ih =>
    have hrest := ih (h.run [operation])
    rw [run?, List.foldlM_cons, perform?_ofPlay h]
    exact hrest

end Walk

theorem exists_frame_of_getElem? {number : Nat} {cell : Cell}
    (h : (ofFrames frames)[number]? = some cell) :
    ∃ inner frame outer, frames = inner ++ frame :: outer ∧ outer.length = number ∧
      cell = .ofFrame (before? number) frame := by
  have hlt : number < frames.length := by
    simpa using (List.getElem?_eq_some_iff.1 h).1
  have hsplit := List.take_append_drop (frames.length - 1 - number) frames
  obtain ⟨frame, outer, hdrop⟩ :
      ∃ frame outer, frames.drop (frames.length - 1 - number) = frame :: outer :=
    List.exists_cons_of_ne_nil (by simp; omega)
  have hlen := congrArg List.length hdrop
  simp only [List.length_drop, List.length_cons] at hlen
  obtain rfl : outer.length = number := by omega
  rw [hdrop] at hsplit
  refine ⟨_, frame, outer, hsplit.symm, rfl, ?_⟩
  rw [← hsplit, getElem?_ofFrames] at h
  exact (Option.some.inj h).symm

theorem linked_ofFrames (h : Stack script frames) : Linked script (ofFrames frames) where
  outermost := by
    intro cell hcell
    obtain ⟨inner, frame, outer, rfl, hlen, rfl⟩ := exists_frame_of_getElem? hcell
    obtain rfl := List.length_eq_zero_iff.1 hlen
    obtain ⟨-, -, henc⟩ := h.drop
    cases henc
    exact ⟨rfl, rfl⟩
  inside := by
    intro number cell within hcell hwithin
    obtain ⟨inner, frame, outer, rfl, hlen, rfl⟩ := exists_frame_of_getElem? hwithin
    obtain ⟨parent, outer, rfl⟩ := List.exists_cons_of_length_eq_add_one hlen
    obtain rfl : outer.length = number := by simpa using hlen
    rw [List.append_cons, getElem?_ofFrames] at hcell
    cases hcell
    obtain ⟨-, -, henc⟩ := h.drop
    cases henc with
    | body hs _ hc hb _ =>
      refine ⟨rfl, _, ?_, hb⟩
      rw [current?_ofFrame hs, hc]
  waits := by
    intro number cell hcell hw
    obtain ⟨inner, frame, outer, rfl, rfl, rfl⟩ := exists_frame_of_getElem? hcell
    obtain ⟨hs, hwaits, -⟩ := h.drop
    obtain ⟨hinner, command, hc, hneeds⟩ := hwaits hw
    refine ⟨by simp [hinner], command, ?_, hneeds⟩
    rw [current?_ofFrame hs, hc]

/-- A play awaits a choice exactly when a frame of its row waits at a menu. -/
theorem awaitsChoice_iff {play : Play} (h : play.Nested) :
    play.awaitsChoice = true ↔
      ∃ cell ∈ ofFrames play.frames, cell.waiting = true ∧
        ∃ choices, cell.current? = some (.menu choices) := by
  constructor
  · intro hawaits
    unfold Play.awaitsChoice at hawaits
    split at hawaits
    · cases hawaits
    · rename_i frame outer hframes
      rw [Bool.and_eq_true] at hawaits
      obtain ⟨hw, hmenu⟩ := hawaits
      split at hmenu
      · rename_i choices hc
        unfold Play.Nested at h
        rw [hframes] at h ⊢
        obtain _ | ⟨hs, -, -⟩ := h
        refine ⟨_, List.mem_of_getElem? (getElem?_top frame outer), hw, choices, ?_⟩
        rw [current?_ofFrame hs, hc]
      · cases hmenu
  · rintro ⟨cell, hmem, hw, choices, hc⟩
    obtain ⟨number, hnumber⟩ := List.mem_iff_getElem?.1 hmem
    obtain ⟨inner, frame, outer, hframes, rfl, rfl⟩ := exists_frame_of_getElem? hnumber
    unfold Play.Nested at h
    rw [hframes] at h
    obtain ⟨hs, hwaits, -⟩ := h.drop
    obtain ⟨rfl, -⟩ := hwaits hw
    rw [current?_ofFrame hs] at hc
    have hwaiting : frame.waiting = true := hw
    rw [Play.awaitsChoice, hframes]
    simp [hwaiting, hc]

end Row

open Row in
/-- In every run of a play the frames by number stay within the row, are linked and nested, and
are at most one more than the bodies nested in the script, also in the middle of a step. A play
awaits a choice exactly when a frame waits at a menu. -/
theorem linked_of_run (script : List Command) (stepLimit : Nat) (operations : List Operation) :
    ∃ walk : Walk, (Walk.start script stepLimit).run? operations = some walk ∧
      walk = .ofPlay ((Play.start script stepLimit).run operations) ∧
      Linked script walk.row ∧ walk.row.length ≤ 1 + Command.nestingOf script ∧
      (((Play.start script stepLimit).run operations).awaitsChoice = true ↔
        ∃ cell ∈ walk.row, cell.waiting = true ∧
          ∃ choices, cell.current? = some (.menu choices)) ∧
      ∀ commands input, ∃ row, walk.midway? commands input = some row ∧
        Linked script row ∧ row.length ≤ 1 + Command.nestingOf script := by
  have hnested := (Play.nested_start script stepLimit).run operations
  have hscript := Play.script_run (Play.start script stepLimit) operations
  have hstart : Walk.start script stepLimit = .ofPlay (.start script stepLimit) := by
    simp only [Walk.start, Walk.ofPlay, Play.start, ofFrames_start]
  have hrow {frames : List Frame} (h : Stack script frames) :
      Linked script (ofFrames frames) ∧ (ofFrames frames).length ≤ 1 + Command.nestingOf script :=
    ⟨linked_ofFrames h, by rw [length_ofFrames]; exact h.length_le⟩
  have hstack : Stack script ((Play.start script stepLimit).run operations).frames := by
    rwa [Play.Nested, hscript] at hnested
  refine ⟨.ofPlay _, ?_, rfl, (hrow hstack).1, (hrow hstack).2, awaitsChoice_iff hnested, ?_⟩
  · rw [hstart]
    exact Walk.run?_ofPlay (Play.nested_start script stepLimit) operations
  · intro commands input
    exact ⟨_, Walk.midway?_ofPlay hnested commands input,
      hrow (Execution.stack_chain commands hstack.settle)⟩

end StoryScript
