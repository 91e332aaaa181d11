import Mathlib.Data.List.Infix
import Mathlib.Tactic.Common
import StoryScript.Proofs.Beat.Basic
import StoryScript.Proofs.Row.Basic

/-! # The scope of jumps

A jump goes to the first label with its name in the innermost list around it that has one. Which
label that is can be read off the script and the address of the jump: the play has no part in it,
since its frames are walking just the lists along the way to the address. Without such a label the
jump is passed.
-/

namespace StoryScript

/-- The place of a command in a script. The way leads to the list of the command, its last step
first: each step is the place of a command and the number of the body that goes on. -/
structure Address where
  way : List (Nat × Nat)
  place : Nat
deriving DecidableEq, Repr

namespace Address

def listAt? (script : List Command) : List (Nat × Nat) → Option (List Command)
  | [] => some script
  | (place, number) :: way =>
    ((listAt? script way).bind (·[place]?)).bind (·.bodies[number]?)

/-- The command at an address. -/
def command? (script : List Command) (address : Address) : Option Command :=
  (listAt? script address.way).bind (·[address.place]?)

/-- The first label with the name given that stands directly in the list at the end of a way. -/
def labelIn? (script : List Command) (name : String) (way : List (Nat × Nat)) : Option Address :=
  ((listAt? script way).bind (·.findIdx? (·.isLabel name))).map (⟨way, ·⟩)

/-- The first label with the name given in the innermost list along a way that has one. -/
def target? (script : List Command) (name : String) : List (Nat × Nat) → Option Address
  | [] => labelIn? script name []
  | step :: way => (labelIn? script name (step :: way)).or (target? script name way)

def Unlabelled (script : List Command) (name : String) (way : List (Nat × Nat)) : Prop :=
  ∀ inner, inner <:+ way → ∀ commands, listAt? script inner = some commands →
    ∀ command ∈ commands, command.isLabel name = false

/-- The label to which a name refers at the end of a way: it stands in a list along the way, none
before it in its list has the name, and none in a list further in. -/
structure IsTarget (script : List Command) (name : String) (way : List (Nat × Nat))
    (target : Address) : Prop where
  encloses : target.way <:+ way
  label : ∃ body, target.command? script = some (.label name body)
  first : ∀ place < target.place, ∀ command,
    Address.command? script ⟨target.way, place⟩ = some command → command.isLabel name = false
  innermost : ∀ inner, inner <:+ way → target.way.length < inner.length →
    ∀ commands, listAt? script inner = some commands →
      ∀ command ∈ commands, command.isLabel name = false

variable {script : List Command} {name : String} {way : List (Nat × Nat)} {target : Address}

theorem labelIn?_eq_some (h : labelIn? script name way = some target) :
    target.way = way ∧ ∃ commands, listAt? script way = some commands ∧
      commands.findIdx? (·.isLabel name) = some target.place := by
  obtain ⟨place, hp, rfl⟩ := Option.map_eq_some_iff.1 h
  obtain ⟨commands, hl, hf⟩ := Option.bind_eq_some_iff.1 hp
  exact ⟨rfl, commands, hl, hf⟩

theorem labelIn?_eq_none (h : labelIn? script name way = none) {commands : List Command}
    (hl : listAt? script way = some commands) :
    ∀ command ∈ commands, command.isLabel name = false := by
  rw [labelIn?, hl, Option.bind_some, Option.map_eq_none_iff] at h
  simpa using List.findIdx?_eq_none_iff.1 h

theorem isTarget_of_labelIn? (h : labelIn? script name way = some target) :
    IsTarget script name way target := by
  obtain ⟨hway, commands, hl, hf⟩ := labelIn?_eq_some h
  obtain ⟨hlt, hlabel, hfirst⟩ := List.findIdx?_eq_some_iff_getElem.1 hf
  obtain ⟨body, hbody⟩ := Command.exists_eq_label_of_isLabel hlabel
  subst hway
  refine ⟨List.suffix_refl _, ⟨body, ?_⟩, ?_, ?_⟩
  · rw [command?, hl, Option.bind_some, List.getElem?_eq_getElem hlt, hbody]
  · intro place hplace command hc
    rw [command?, hl, Option.bind_some] at hc
    obtain ⟨hlt', rfl⟩ := List.getElem?_eq_some_iff.1 hc
    simpa using hfirst place hplace
  · intro inner hi hlonger
    exact absurd hi.length_le (Nat.not_le.2 hlonger)

theorem isTarget_of_target? (h : target? script name way = some target) :
    IsTarget script name way target := by
  induction way with
  | nil => exact isTarget_of_labelIn? h
  | cons step way ih =>
    rw [target?] at h
    cases hlabel : labelIn? script name (step :: way) with
    | some found =>
      rw [hlabel] at h
      cases h
      exact isTarget_of_labelIn? hlabel
    | none =>
      rw [hlabel] at h
      obtain ⟨hencloses, hl, hfirst, hinner⟩ := ih h
      refine ⟨hencloses.trans (List.suffix_cons _ _), hl, hfirst, fun inner hi hlonger => ?_⟩
      obtain rfl | hi := List.suffix_cons_iff.1 hi
      · exact fun commands hl => labelIn?_eq_none hlabel hl
      · exact hinner inner hi hlonger

theorem unlabelled_of_target? (h : target? script name way = none) :
    Unlabelled script name way := by
  induction way with
  | nil =>
    intro inner hi commands hl
    obtain rfl := List.suffix_nil.1 hi
    exact labelIn?_eq_none h hl
  | cons step way ih =>
    rw [target?, Option.or_eq_none_iff] at h
    intro inner hi commands hl
    obtain rfl | hi := List.suffix_cons_iff.1 hi
    · exact labelIn?_eq_none h.1 hl
    · exact ih h.2 inner hi commands hl

end Address

namespace Frame

/-- The place of the current command. -/
def place (frame : Frame) : Nat :=
  frame.commands.length - frame.ahead.length

end Frame

open Address

/-- The frames around a list, which walk the lists along the way to it: each stands at the command
on the way whose body the next one walks. -/
inductive Along (script : List Command) : List (Nat × Nat) → List Frame → Prop
  | whole : Along script [] []
  | step {way frame outer number} : listAt? script way = some frame.commands →
      Along script way outer → Along script ((frame.place, number) :: way) (frame :: outer)

/-- The frames stand at an address: the innermost one is at its place, and those around it are
along the way. -/
structure StandsAt (script : List Command) (address : Address) (frame : Frame)
    (outer : List Frame) : Prop where
  list : listAt? script address.way = some frame.commands
  place : frame.place = address.place
  around : Along script address.way outer

variable {script : List Command} {name : String} {way : List (Nat × Nat)} {frame : Frame}
  {outer : List Frame} {address : Address}

theorem Frame.current?_eq_getElem? (hs : frame.ahead <:+ frame.commands) :
    frame.current? = frame.commands[frame.place]? :=
  (@Row.current?_ofFrame none frame hs).symm

theorem StandsAt.current?_eq (h : StandsAt script address frame outer)
    (hs : frame.ahead <:+ frame.commands) : frame.current? = address.command? script := by
  rw [frame.current?_eq_getElem? hs, Address.command?, h.list, h.place, Option.bind_some]

theorem Enclosed.along {commands : List Command} (h : Enclosed script commands outer) :
    ∃ way, listAt? script way = some commands ∧ Along script way outer := by
  induction h with
  | whole => exact ⟨[], rfl, .whole⟩
  | @body commands frame outer command hs _ hc hb _ ih =>
    obtain ⟨way, hl, ha⟩ := ih
    obtain ⟨number, hnumber⟩ := List.mem_iff_getElem?.1 hb
    rw [frame.current?_eq_getElem? hs] at hc
    exact ⟨(frame.place, number) :: way, by rw [listAt?, hl, Option.bind_some, hc]; exact hnumber,
      .step hl ha⟩

theorem Stack.exists_standsAt (h : Stack script (frame :: outer)) :
    ∃ address, StandsAt script address frame outer := by
  obtain _ | ⟨-, -, henc⟩ := h
  obtain ⟨way, hl, ha⟩ := henc.along
  exact ⟨⟨way, frame.place⟩, hl, rfl, ha⟩

/-- A jump finds the label to which its name refers, in the frame that walks the label's list. -/
theorem Along.jump? (frame : Frame) (name : String)
    (hl : listAt? script way = some frame.commands) (ha : Along script way outer) :
    match target? script name way with
    | none => Frame.jump? name (frame :: outer) = none
    | some target => ∃ inner owner rest, frame :: outer = inner ++ owner :: rest ∧
        Frame.jump? name (frame :: outer) = some ({ owner with
          ahead := owner.commands.drop target.place
          waiting := false } :: rest) ∧
        target.place < owner.commands.length ∧ listAt? script target.way = some owner.commands ∧
        Along script target.way rest := by
  induction ha generalizing frame with
  | whole =>
    rw [target?, labelIn?, hl, Option.bind_some, Frame.jump?, frame.atLabel?_eq name]
    cases hp : frame.commands.findIdx? (·.isLabel name) with
    | none => rfl
    | some place =>
      exact ⟨[], frame, [], rfl, rfl, (List.findIdx?_eq_some_iff_getElem.1 hp).1, hl, .whole⟩
  | @step way parent outer number hparent ha ih =>
    rw [target?, labelIn?, hl, Option.bind_some, Frame.jump?, frame.atLabel?_eq name]
    cases hp : frame.commands.findIdx? (·.isLabel name) with
    | none =>
      have hrest := ih parent hparent
      simp only [Option.map_none, Option.none_or]
      split at hrest
      · exact hrest
      · obtain ⟨inner, owner, rest, hsplit, hjump, howner⟩ := hrest
        exact ⟨frame :: inner, owner, rest, by rw [hsplit]; rfl, hjump, howner⟩
    | some place =>
      exact ⟨[], frame, _, rfl, rfl, (List.findIdx?_eq_some_iff_getElem.1 hp).1, hl,
        .step hparent ha⟩

/-- Whether a beat neither executes a command nor starts the play again. -/
def Beat.isIdle : Beat → Bool
  | execute _ => false
  | restart => false
  | _ => true

namespace Play

variable {play : Play}

theorem frames_afterAll_idle (hl : Frame.leave? play.frames = none) {idle : List Beat}
    (hi : ∀ beat ∈ idle, beat.isIdle = true) : (play.afterAll idle).frames = play.frames := by
  induction idle generalizing play with
  | nil => rfl
  | cons beat idle ih =>
    have hsame : (play.after beat).frames = play.frames := by
      cases beat with
      | execute input => simp [Beat.isIdle] at hi
      | restart => simp [Beat.isIdle] at hi
      | leave => rw [after, hl, Option.getD_none]
      | assign assignment => rfl
      | replaceStore store => rfl
    rw [afterAll_cons, ih (by rw [hsame]; exact hl) fun other ho =>
      hi other (List.mem_cons_of_mem _ ho), hsame]

/-- A jump leads from one play to another one, at a target: the frames inside the one that walks the
target's list are dropped, those around it are as they were, and nothing else changes. The next
command to be executed is the one at the target. -/
structure JumpsTo (script : List Command) (target : Address) (play next : Play) : Prop where
  lands : ∃ inner owner rest moved, play.frames = inner ++ owner :: rest ∧
    next = { play with frames := moved :: rest } ∧ moved.commands = owner.commands ∧
    StandsAt script target moved rest
  current : next.frames.head?.bind (·.current?) = target.command? script
  stays : ∀ idle : List Beat, (∀ beat ∈ idle, beat.isIdle = true) →
    (next.afterAll idle).frames = next.frames

theorem after_jump (hf : play.frames = frame :: outer)
    (hc : frame.current? = some (.jump name)) (input : Option Input) :
    play.after (.execute input) = { play with
      frames := (Frame.jump? name (frame.endChain :: outer)).getD
        (frame.endChain.next :: outer) } := by
  rw [after, hf, Execution.ofFrames_of_not_isBranch hc rfl, Execution.command, Execution.jump]
  cases Frame.jump? name (frame.endChain :: outer) <;> rfl

theorem jumpsTo_of_target? {target : Address} (hf : play.frames = frame :: outer)
    (hc : frame.current? = some (.jump name)) (ha : StandsAt script address frame outer)
    (ht : target? script name address.way = some target) (input : Option Input) :
    JumpsTo script target play (play.after (.execute input)) := by
  have hjump := Along.jump? frame.endChain name ha.list ha.around
  rw [ht] at hjump
  obtain ⟨inner, owner, rest, hsplit, hjump, hlt, hlist, haround⟩ := hjump
  have hplace : (owner.commands.length - (owner.commands.drop target.place).length) =
      target.place := by
    rw [List.length_drop, Nat.sub_sub_self hlt.le]
  have hstands : StandsAt script target
      { owner with ahead := owner.commands.drop target.place, waiting := false } rest :=
    ⟨hlist, hplace, haround⟩
  have hafter := after_jump hf hc input
  rw [hjump, Option.getD_some] at hafter
  obtain ⟨body, hlabel⟩ := (isTarget_of_target? ht).label
  have hcurrent := hstands.current?_eq (List.drop_suffix _ _)
  refine ⟨?_, ?_, fun idle hi => ?_⟩
  · cases inner with
    | nil =>
      obtain ⟨rfl, rfl⟩ := List.cons.inj hsplit
      exact ⟨[], frame, outer, _, hf, hafter, rfl, hstands⟩
    | cons first inner =>
      obtain ⟨rfl, rfl⟩ := List.cons.inj hsplit
      exact ⟨frame :: inner, owner, rest, _, hf, hafter, rfl, hstands⟩
  · rw [hafter]
    exact hcurrent
  · refine frames_afterAll_idle ?_ hi
    rw [hafter]
    exact Frame.leave?_of_current? (hcurrent.trans hlabel) (by simp)

end Play

/-- Wherever a run comes to a jump on its way, also in the middle of a step, the jump leads to the
target that the script gives for its address, or it is passed if the script gives none. -/
theorem jumps_in_scope (script : List Command) (stepLimit : Nat) (operations : List Operation)
    {moment : Play} (hm : (Play.start script stepLimit).Moment operations moment)
    (hf : moment.frames = frame :: outer) (hc : frame.current? = some (.jump name))
    (input : Option Input) :
    (Play.start script stepLimit).Passes operations moment ∧
      (∃ address, StandsAt script address frame outer) ∧
      ∀ address, StandsAt script address frame outer →
        ((∃ command ∈ script, command.isLabel name = true) →
          target? script name address.way ≠ none) ∧
        match target? script name address.way with
        | some target => IsTarget script name address.way target ∧
            moment.JumpsTo script target (moment.after (.execute input))
        | none => Unlabelled script name address.way ∧
            moment.after (.execute input) =
              { moment with frames := frame.endChain.next :: outer } := by
  have hstack := hm.stack
  rw [hf] at hstack
  refine ⟨hm.passes, hstack.exists_standsAt, fun address ha => ⟨?_, ?_⟩⟩
  · rintro ⟨command, hmem, hlabel⟩ ht
    have hnone := unlabelled_of_target? ht [] List.nil_suffix script rfl command hmem
    simp [hlabel] at hnone
  · split
    · rename_i target ht
      exact ⟨isTarget_of_target? ht, Play.jumpsTo_of_target? hf hc ha ht input⟩
    · rename_i ht
      have hjump := Along.jump? frame.endChain name ha.list ha.around
      rw [ht] at hjump
      refine ⟨unlabelled_of_target? ht, ?_⟩
      rw [Play.after_jump hf hc, hjump, Option.getD_none]

def hall : List Command :=
  [.menu [⟨"back", [.jump "hall"]⟩, ⟨"out", [.scene "door" none, .jump "yard"]⟩]]

def maze : List Command :=
  [.label "hall" hall, .label "room" [.label "yard" []], .label "yard" [.dialogue none "Sun."]]

def mazeBeats : List Beat :=
  [.execute none, .execute none, .execute (some (.choose 1)), .execute none]

theorem jumps_in_scope_maze :
    ∃ moment frame,
      (Play.start maze 5).Moment [.advance none, .step (some (.choose 1)), .step none] moment ∧
      (Play.start maze 5).Passes [.advance none, .step (some (.choose 1)), .step none] moment ∧
      moment.frames = frame :: [.start hall, .start maze] ∧
      frame.current? = some (.jump "yard") ∧
      StandsAt maze ⟨[(0, 1), (0, 0)], 1⟩ frame [.start hall, .start maze] ∧
      Play.JumpsTo maze ⟨[], 2⟩ moment (moment.after (.execute none)) := by
  have hm : (Play.start maze 5).Moment [.advance none, .step (some (.choose 1)), .step none]
      ((Play.start maze 5).afterAll mazeBeats) := ⟨mazeBeats, ⟨_, rfl⟩, rfl⟩
  have hout : Along maze [(0, 0)] [.start maze] :=
    @Along.step maze [] (.start maze) [] 0 rfl .whole
  have hin : Along maze [(0, 1), (0, 0)] [.start hall, .start maze] :=
    @Along.step maze [(0, 0)] (.start hall) [.start maze] 1 rfl hout
  have hstands : StandsAt maze ⟨[(0, 1), (0, 0)], 1⟩
      ⟨[.scene "door" none, .jump "yard"], [.jump "yard"], false, false⟩
      [.start hall, .start maze] := ⟨rfl, rfl, hin⟩
  obtain ⟨hpasses, -, hjumps⟩ := jumps_in_scope maze 5 _ hm rfl rfl none
  exact ⟨_, _, hm, hpasses, rfl, rfl, hstands, (hjumps _ hstands).2.2⟩

end StoryScript
