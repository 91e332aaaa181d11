import Mathlib.Data.List.TakeWhile
import Mathlib.Order.Basic
import Mathlib.Tactic.Common
import StoryScript.Proofs.Stack

/-! # Frames in a row

The frames of a play can also stand in a row, the outermost first. A frame then keeps a cursor
into its list and the number of the frame around it, and whatever is done to a frame is done by
its number and fails if the row has no such frame. Frames that are nested are a row in which
each frame is linked to the one before it, and on such a row nothing fails.
-/

namespace StoryScript

theorem Frame.atLabel?_eq (frame : Frame) (name : String) :
    frame.atLabel? name = (frame.commands.findIdx? (·.isLabel name)).map fun place =>
      { frame with ahead := frame.commands.drop place, waiting := false } := by
  cases hp : frame.commands.findIdx? (·.isLabel name) with
  | none =>
    have hnil : frame.commands.dropWhile (fun c => !c.isLabel name) = [] := by
      simpa [List.dropWhile_eq_nil_iff] using List.findIdx?_eq_none_iff.1 hp
    simp [Frame.atLabel?, hnil]
  | some place =>
    obtain ⟨hlt, hfind⟩ := List.findIdx?_eq_some_iff_findIdx_eq.1 hp
    have hdrop : frame.commands.dropWhile (fun c => !c.isLabel name) =
        frame.commands.drop place := by
      rw [List.dropWhile_eq_drop_findIdx_not]
      simp only [Bool.not_not, hfind]
    have hcons : frame.commands.drop place ≠ [] := by simpa using hlt
    obtain ⟨command, later, heq⟩ := List.exists_cons_of_ne_nil hcons
    simp only [Frame.atLabel?, hdrop, heq, Option.map_some]

structure Cell where
  commands : List Command
  /-- The place of the current command. -/
  cursor : Nat
  /-- The number of the frame around this one. -/
  parent : Option Nat
  waiting : Bool
  branchTaken : Bool
deriving Repr

namespace Cell

def start (commands : List Command) (parent : Option Nat) : Cell :=
  ⟨commands, 0, parent, false, false⟩

def current? (cell : Cell) : Option Command :=
  cell.commands[cell.cursor]?

def next (cell : Cell) : Cell :=
  { cell with cursor := cell.cursor + 1 }

def labelPlace? (cell : Cell) (name : String) : Option Nat :=
  cell.commands.findIdx? (·.isLabel name)

def moveTo (cell : Cell) (place : Nat) : Cell :=
  { cell with cursor := place, waiting := false }

def ofFrame (parent : Option Nat) (frame : Frame) : Cell :=
  ⟨frame.commands, frame.commands.length - frame.ahead.length, parent, frame.waiting,
    frame.branchTaken⟩

end Cell

/-- The number before a number. -/
def before? : Nat → Option Nat
  | 0 => none
  | number + 1 => some number

abbrev Row := List Cell

namespace Row

def ofFrames : List Frame → Row
  | [] => []
  | frame :: outer => ofFrames outer ++ [.ofFrame (before? outer.length) frame]

def update? (row : Row) (number : Nat) (change : Cell → Cell) : Option Row :=
  row[number]?.map fun cell => row.set number (change cell)

def enter (row : Row) (body : List Command) : Row :=
  row ++ [.start body (before? row.length)]

/-- The row after a jump, if a label is found on the way along the links from the frame of a
number outward. It fails if a link leads outside the row or more than `fuel` links are needed. -/
def jump? (row : Row) (name : String) : Nat → Option Nat → Option (Option Row)
  | _, none => some none
  | 0, some _ => none
  | fuel + 1, some number => do
    let cell ← row[number]?
    match cell.labelPlace? name with
    | some place => some (← update? (row.take (number + 1)) number (·.moveTo place))
    | none => jump? row name fuel cell.parent

/-- The row after the frames at their end have been left, each time moving the frame to which
the frame left is linked. It fails if a link leads outside the row or `fuel` is used up. -/
def settle? : Nat → Row → Option Row
  | 0, _ => none
  | fuel + 1, row =>
    match row.getLast? with
    | none => some row
    | some cell =>
      if cell.waiting then some row
      else
        match cell.current? with
        | none =>
          match cell.parent with
          | none => settle? fuel row.dropLast
          | some parent => do settle? fuel (← update? row.dropLast parent (·.next))
        | some .finish => settle? fuel []
        | some _ => some row

@[simp] theorem length_ofFrames (frames : List Frame) :
    (ofFrames frames).length = frames.length := by
  induction frames with
  | nil => rfl
  | cons frame outer ih => simp [ofFrames, ih]

theorem getElem?_ofFrames (inner : List Frame) (frame : Frame) (outer : List Frame) :
    (ofFrames (inner ++ frame :: outer))[outer.length]? =
      some (.ofFrame (before? outer.length) frame) := by
  induction inner with
  | nil => simp [ofFrames]
  | cons first inner ih =>
    rw [List.cons_append, ofFrames, List.getElem?_append_left (by simp; omega), ih]

theorem take_ofFrames (inner outer : List Frame) :
    (ofFrames (inner ++ outer)).take outer.length = ofFrames outer := by
  induction inner with
  | nil => exact List.take_of_length_le (length_ofFrames outer).le
  | cons first inner ih =>
    rw [List.cons_append, ofFrames, List.take_append_of_le_length (by simp), ih]

theorem update?_ofFrames {frame changed : Frame} {outer : List Frame} {change : Cell → Cell}
    (h : change (.ofFrame (before? outer.length) frame) =
      .ofFrame (before? outer.length) changed) :
    update? (ofFrames (frame :: outer)) outer.length change =
      some (ofFrames (changed :: outer)) := by
  have hget := getElem?_ofFrames [] frame outer
  rw [List.nil_append] at hget
  rw [update?, hget, Option.map_some, h]
  simp [ofFrames]

theorem enter_ofFrames (frames : List Frame) (body : List Command) :
    enter (ofFrames frames) body = ofFrames (.start body :: frames) := by
  simp [enter, ofFrames, Cell.start, Cell.ofFrame, Frame.start]

theorem current?_ofFrame {parent : Option Nat} {frame : Frame}
    (hs : frame.ahead <:+ frame.commands) :
    (Cell.ofFrame parent frame).current? = frame.current? := by
  obtain ⟨passed, hp⟩ := hs
  simp only [Cell.current?, Cell.ofFrame, Frame.current?, ← hp, List.length_append,
    Nat.add_sub_cancel_right]
  rw [List.getElem?_append_right (Nat.le_refl _), Nat.sub_self, List.head?_eq_getElem?]

theorem next_ofFrame {parent : Option Nat} {frame : Frame} {command : Command}
    (hs : frame.ahead <:+ frame.commands) (hc : frame.current? = some command) :
    (Cell.ofFrame parent frame).next = .ofFrame parent frame.next := by
  have hle := hs.length_le
  have hne := congrArg List.length (Frame.ahead_eq_of_current? hc)
  simp only [List.length_cons, List.length_tail] at hne
  simp only [Cell.next, Cell.ofFrame, Frame.next, List.length_tail, Cell.mk.injEq, and_true,
    true_and]
  omega

theorem labelPlace?_ofFrame (parent : Option Nat) (frame : Frame) (name : String) :
    ((Cell.ofFrame parent frame).labelPlace? name).map (Cell.ofFrame parent frame).moveTo =
      (frame.atLabel? name).map (.ofFrame parent) := by
  rw [Frame.atLabel?_eq, Option.map_map]
  refine Option.map_congr fun place hp => ?_
  obtain ⟨hlt, -⟩ := List.findIdx?_eq_some_iff_findIdx_eq.1 hp
  have hlt' : place < frame.commands.length := hlt
  simp only [Cell.ofFrame, Cell.moveTo, Function.comp_apply, List.length_drop]
  rw [Nat.sub_sub_self hlt'.le]

/-- On nested frames the search along the links finds what the search through the frames does. -/
theorem jump?_ofFrames (name : String) (inner frames : List Frame) {fuel : Nat}
    (hf : frames.length ≤ fuel) :
    jump? (ofFrames (inner ++ frames)) name fuel (before? frames.length) =
      some ((Frame.jump? name frames).map ofFrames) := by
  induction frames generalizing inner fuel with
  | nil => cases fuel <;> rfl
  | cons frame outer ih =>
    obtain ⟨fuel, rfl⟩ := Nat.exists_eq_succ_of_ne_zero (Nat.ne_zero_of_lt hf)
    have hmove := labelPlace?_ofFrame (before? outer.length) frame name
    rw [List.length_cons, before?, jump?, getElem?_ofFrames, Frame.jump?]
    simp only [Option.bind_eq_bind, Option.bind_some]
    cases hp : (Cell.ofFrame (before? outer.length) frame).labelPlace? name with
    | some place =>
      rw [hp, Option.map_some] at hmove
      obtain ⟨found, hl, hfound⟩ := Option.map_eq_some_iff.1 hmove.symm
      have htake : (ofFrames (inner ++ frame :: outer)).take (outer.length + 1) =
          ofFrames (frame :: outer) := take_ofFrames inner (frame :: outer)
      have hchange : update? (ofFrames (frame :: outer)) outer.length (·.moveTo place) =
          some (ofFrames (found :: outer)) := update?_ofFrames hfound.symm
      simp only [htake, hchange, hl, Option.bind_some, Option.map_some]
    | none =>
      rw [hp, Option.map_none] at hmove
      have hl : frame.atLabel? name = none := by simpa using hmove.symm
      have hstep := ih (inner ++ [frame]) (Nat.le_of_succ_le_succ hf)
      rw [List.append_assoc, List.singleton_append] at hstep
      rw [hl]
      exact hstep

theorem getLast?_ofFrames (frame : Frame) (outer : List Frame) :
    (ofFrames (frame :: outer)).getLast? = some (.ofFrame (before? outer.length) frame) := by
  simp [ofFrames]

theorem dropLast_ofFrames (frame : Frame) (outer : List Frame) :
    (ofFrames (frame :: outer)).dropLast = ofFrames outer := by
  simp [ofFrames]

/-- On nested frames the links lead to the frames that settling moves on. -/
theorem settle?_ofFrames {script : List Command} {frame : Frame} {outer : List Frame}
    (h : Stack script (frame :: outer)) {fuel : Nat} (hf : outer.length + 2 ≤ fuel) :
    settle? fuel (ofFrames (frame :: outer)) =
      some (ofFrames (Frame.settleUnder frame outer)) := by
  induction outer generalizing frame fuel with
  | nil =>
    obtain ⟨fuel, rfl⟩ : ∃ k, fuel = k + 2 := ⟨fuel - 2, by omega⟩
    obtain _ | ⟨hs, -, -⟩ := h
    rw [settle?, getLast?_ofFrames, dropLast_ofFrames]
    simp only [current?_ofFrame hs]
    unfold Frame.settleUnder Frame.current?
    cases hw : frame.waiting with
    | true => simp [Cell.ofFrame, hw]
    | false =>
      simp only [Cell.ofFrame, hw, Bool.false_eq_true, ite_false]
      cases ha : frame.ahead with
      | nil => rfl
      | cons command later => cases command <;> rfl
  | cons parent outer ih =>
    obtain ⟨fuel, rfl⟩ : ∃ k, fuel = k + 2 := ⟨fuel - 2, by omega⟩
    obtain _ | ⟨hs, -, henc⟩ := h
    obtain _ | ⟨hsuffix, hw', hc, -, houter⟩ := henc
    rw [settle?, getLast?_ofFrames, dropLast_ofFrames]
    simp only [current?_ofFrame hs]
    unfold Frame.settleUnder Frame.current?
    cases hw : frame.waiting with
    | true => simp [Cell.ofFrame, hw]
    | false =>
      simp only [Cell.ofFrame, hw, Bool.false_eq_true, ite_false]
      cases ha : frame.ahead with
      | nil =>
        simp only [List.head?_nil, List.length_cons, before?, Option.bind_eq_bind]
        rw [update?_ofFrames (next_ofFrame hsuffix hc), Option.bind_some]
        refine ih (Stack.next parent hsuffix hw' houter) ?_
        simp only [List.length_cons] at hf
        omega
      | cons command later => cases command <;> rfl

end Row

end StoryScript
