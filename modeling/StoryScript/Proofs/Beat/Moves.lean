import StoryScript.Proofs.Beat.Basic

/-! # What a beat does to the frames

Unless the host starts the play again, a beat touches the innermost frame alone, enters a body from
it, leaves it, or jumps to a label of one of the frames; the frames further out are as they were.
-/

namespace StoryScript

namespace Frame

def marked (frame : Frame) (waiting branchTaken : Bool) : Frame :=
  { frame with waiting := waiting, branchTaken := branchTaken }

/-- What can become of frames in a beat. -/
inductive Moves (frames : List Frame) : List Frame → Prop
  | stays : Moves frames frames
  | marks (frame : Frame) {outer} (waiting branchTaken : Bool) : frames = frame :: outer →
      Moves frames (frame.marked waiting branchTaken :: outer)
  | passes (frame : Frame) {outer} (waiting branchTaken : Bool) : frames = frame :: outer →
      Moves frames ((frame.marked waiting branchTaken).next :: outer)
  | enters (frame : Frame) {outer command} (waiting branchTaken : Bool) (body : List Command) :
      frames = frame :: outer → frame.current? = some command → body ∈ command.bodies →
      Moves frames (.start body :: frame.marked waiting branchTaken :: outer)
  | jumps (inner : List Frame) (owner : Frame) {outer moved name body} :
      frames.head?.bind current? = some (.jump name) → frames = inner ++ owner :: outer →
      moved.commands = owner.commands → moved.current? = some (.label name body) →
      Moves frames (moved :: outer)
  | leaves {frame outer} : frames = frame :: outer → frame.ahead = [] →
      Moves frames (outer.modifyHead next)
  | ends : Moves frames []

variable {frame : Frame} {outer frames found : List Frame} {name : String}

theorem current?_of_atLabel? {found : Frame} (h : frame.atLabel? name = some found) :
    found.commands = frame.commands ∧ ∃ body, found.current? = some (.label name body) := by
  have hfirst := List.head?_dropWhile_not (!·.isLabel name) frame.commands
  unfold atLabel? at h
  split at h
  · cases h
  · rename_i hne
    cases h
    refine ⟨rfl, ?_⟩
    cases hhead : (frame.commands.dropWhile (!·.isLabel name)).head? with
    | none => exact absurd (List.head?_eq_none_iff.1 hhead) hne
    | some command =>
      rw [hhead] at hfirst
      have hlabel : command.isLabel name = true := by simpa using hfirst
      obtain ⟨body, rfl⟩ := Command.exists_eq_label_of_isLabel hlabel
      exact ⟨body, hhead⟩

theorem exists_owner_of_jump? (h : jump? name frames = some found) :
    ∃ inner owner outer moved body, frames = inner ++ owner :: outer ∧ found = moved :: outer ∧
      moved.commands = owner.commands ∧ moved.current? = some (.label name body) := by
  induction frames with
  | nil => cases h
  | cons frame outer ih =>
    rw [jump?] at h
    split at h
    · rename_i moved hlabel
      cases h
      obtain ⟨hcommands, body, hcurrent⟩ := current?_of_atLabel? hlabel
      exact ⟨[], frame, outer, moved, body, rfl, rfl, hcommands, hcurrent⟩
    · obtain ⟨inner, owner, rest, moved, body, rfl, hmoved⟩ := ih h
      exact ⟨frame :: inner, owner, rest, moved, body, rfl, hmoved⟩

theorem Moves.of_jump? (hc : frame.current? = some (.jump name))
    (h : jump? name (frame.endChain :: outer) = some found) : Moves (frame :: outer) found := by
  obtain ⟨inner, owner, rest, moved, body, hsplit, rfl, hcommands, hcurrent⟩ :=
    exists_owner_of_jump? h
  cases inner with
  | nil =>
    obtain ⟨rfl, rfl⟩ := List.cons.inj hsplit
    exact .jumps [] frame hc rfl hcommands hcurrent
  | cons first inner =>
    obtain ⟨rfl, rfl⟩ := List.cons.inj hsplit
    exact .jumps (frame :: inner) owner hc rfl hcommands hcurrent

theorem Moves.of_leave? (h : leave? frames = some found) : Moves frames found := by
  obtain ⟨frame, outer, rfl, ha, rfl⟩ | rfl := leave?_cases h
  · exact .leaves rfl ha
  · exact .ends

end Frame

theorem Execution.Executes.moves {store : Store} {input : Option Input} {frame : Frame}
    {outer : List Frame} {execution : Execution} (h : Executes store input frame outer execution) :
    Frame.Moves (frame :: outer) execution.frames := by
  cases h with
  | atEnd => exact .stays
  | plain => exact .passes frame frame.waiting false rfl
  | label hc => exact .enters frame frame.waiting false _ rfl hc (by simp [Command.bodies])
  | shown => exact .marks frame true false rfl
  | dismissed => exact .passes frame false false rfl
  | kept => exact .marks frame frame.waiting false rfl
  | emptyMenu => exact .passes frame frame.waiting false rfl
  | offered => exact .marks frame true false rfl
  | chosen hc _ _ _ hi =>
    exact .enters frame false false _ rfl hc (List.mem_map_of_mem (List.mem_of_getElem? hi))
  | declined => exact .marks frame frame.waiting false rfl
  | skipped => exact .passes frame frame.waiting frame.branchTaken rfl
  | opened hc ho =>
    exact .enters frame frame.waiting true _ rfl hc (Command.mem_bodies_of_openBody? ho)
  | failed => exact .passes frame frame.waiting false rfl
  | jumped hc hjump => exact .of_jump? hc hjump
  | strayJump => exact .passes frame frame.waiting false rfl
  | finished => exact .ends

namespace Play

variable {play : Play}

theorem frames_after_execute (play : Play) (input : Option Input) :
    (play.after (.execute input)).frames =
      (Execution.ofFrames play.store input play.frames).frames := by
  rw [after]
  split <;> simp_all [Execution.frames]

theorem moves_after {beat : Beat} (h : beat ≠ .restart) :
    Frame.Moves play.frames (play.after beat).frames := by
  cases beat with
  | execute input =>
    rw [frames_after_execute]
    cases play.frames with
    | nil => exact .ends
    | cons frame outer => exact Execution.executes_ofFrames.moves
  | leave =>
    rw [after]
    cases hl : Frame.leave? play.frames with
    | none => exact .stays
    | some found => exact .of_leave? hl
  | restart => exact absurd rfl h
  | assign assignment => exact .stays
  | replaceStore store => exact .stays

end Play

end StoryScript
