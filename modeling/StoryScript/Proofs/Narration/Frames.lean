import Mathlib.Data.List.TakeWhile
import StoryScript.Proofs.Narration.Relation
import StoryScript.Proofs.Waiting.Basic

/-! # What frames have left to tell

The frames of a play stand for a story that is told halfway: the innermost list of commands
from its place on, and then what follows in the lists around it. Whatever a play does with its
frames leaves the story that they stand for as it is.
-/

namespace StoryScript

namespace Frame

/-- The commands that a frame has left: after a branch that was taken, the rest of its chain is
not among them. -/
def unread (frame : Frame) : List Command :=
  if frame.branchTaken then frame.ahead.dropWhile (·.continuesChain) else frame.ahead

theorem unread_of_not_branchTaken {frame : Frame} (h : frame.branchTaken = false) :
    frame.unread = frame.ahead := by
  simp [unread, h]

theorem unread_of_current? {frame : Frame} {command : Command}
    (hc : frame.current? = some command)
    (hk : command.continuesChain = true → frame.branchTaken = false) :
    frame.unread = command :: frame.ahead.tail := by
  rw [← ahead_eq_of_current? hc]
  cases ht : frame.branchTaken with
  | false => exact unread_of_not_branchTaken ht
  | true =>
    have hn : command.continuesChain = false := by
      by_contra h
      simp [hk (Bool.of_not_eq_false h)] at ht
    unfold unread
    rw [ht, if_pos rfl, ahead_eq_of_current? hc, List.dropWhile_cons, hn]
    rfl

theorem unread_of_skipped {frame : Frame} {command : Command}
    (hc : frame.current? = some command) (hk : command.continuesChain = true)
    (ht : frame.branchTaken = true) : frame.unread = frame.next.unread := by
  unfold unread next
  simp only [ht, ite_true]
  nth_rewrite 1 [ahead_eq_of_current? hc]
  rw [List.dropWhile_cons, hk, if_pos rfl]

theorem unread_of_atEnd {frame : Frame} (h : frame.ahead = []) : frame.unread = [] := by
  simp [unread, h]

end Frame

namespace Narration

open Command

/-- A body that was left in some way is followed by what comes after it in the frames around
it, up to the end of the story. -/
inductive Resumes : List Frame → Tale × Exit → Tale × Ending → Prop
  | outside {exit} : Resumes [] exit (exit.1, exit.2.ending)
  | inside {frame outer exit next result} :
      Follows (outer.map (·.commands)) frame.commands frame.next.unread exit next →
      Resumes outer next result → Resumes (frame :: outer) exit result

/-- The frames have a story left that ends with the result given. -/
inductive Remains : List Frame → Tale → Tale × Ending → Prop
  | ended {tale} : Remains [] tale (tale, .finished)
  | walking {frame outer tale exit result} :
      Tells (outer.map (·.commands)) frame.commands frame.unread tale exit →
      Resumes outer exit result → Remains (frame :: outer) tale result

variable {frame : Frame} {outer frames : List Frame} {tale : Tale} {result : Tale × Ending}

theorem Resumes.ended {ending : Ending} : Resumes frames (tale, .ended ending) (tale, ending) := by
  induction frames with
  | nil => exact .outside
  | cons frame outer ih => exact .inside .ended ih

theorem resumes_through :
    Resumes (frame :: outer) (tale, .through) result ↔
      Remains (frame.next :: outer) tale result := by
  constructor
  · rintro (_ | ⟨hf, hr⟩)
    exact .walking hf hr
  · rintro (_ | ⟨ht, hr⟩)
    exact .inside ht hr

/-- The label at which a jump puts a frame is the first of its list. -/
theorem fromLabel?_of_atLabel? {name : String} {found : Frame}
    (h : frame.atLabel? name = some found) :
    found.commands = frame.commands ∧ fromLabel? name frame.commands = some found.unread := by
  unfold Frame.atLabel? at h
  split at h
  · cases h
  · rename_i hne
    cases h
    refine ⟨rfl, ?_⟩
    cases ha : frame.commands.dropWhile (!·.isLabel name) with
    | nil => exact absurd ha hne
    | cons label later =>
      have hl : label.isLabel name = true := by
        have := List.head?_dropWhile_not (!·.isLabel name) frame.commands
        simpa [ha] using this
      have hk : label.continuesChain = false := by
        cases label <;> simp_all [isLabel, continuesChain]
      rw [@Frame.unread_of_current? _ label rfl (by simp [hk])]
      simp only [fromLabel?, ha, List.tail_cons]

theorem fromLabel?_of_atLabel?_eq_none {name : String} (h : frame.atLabel? name = none) :
    fromLabel? name frame.commands = none := by
  unfold Frame.atLabel? at h
  unfold fromLabel?
  split at h
  · rename_i ha
    rw [ha]
  · cases h

theorem exists_isLabel_of_atLabel? {name : String} {found : Frame}
    (h : frame.atLabel? name = some found) :
    ∃ label ∈ frame.commands, label.isLabel name = true := by
  by_contra hn
  have ha : frame.commands.dropWhile (!·.isLabel name) = [] := by
    refine List.dropWhile_eq_nil_iff.2 fun label hm => ?_
    simpa using fun hl => hn ⟨label, hm, hl⟩
  simp [Frame.atLabel?, ha] at h

theorem not_isLabel_of_atLabel? {name : String} (h : frame.atLabel? name = none) :
    ¬∃ label ∈ frame.commands, label.isLabel name = true := by
  unfold Frame.atLabel? at h
  split at h
  · rename_i ha
    rintro ⟨label, hm, hl⟩
    have := List.dropWhile_eq_nil_iff.1 ha label hm
    simp [hl] at this
  · cases h

theorem exists_isLabel_of_jump? {name : String} {found : List Frame}
    (h : Frame.jump? name frames = some found) :
    ∃ commands ∈ frames.map (·.commands), ∃ label ∈ commands, label.isLabel name = true := by
  induction frames with
  | nil => cases h
  | cons frame outer ih =>
    rw [Frame.jump?] at h
    cases ha : frame.atLabel? name with
    | some other => exact ⟨_, List.mem_cons_self, exists_isLabel_of_atLabel? ha⟩
    | none =>
      rw [ha] at h
      obtain ⟨commands, hm, hl⟩ := ih h
      exact ⟨commands, List.mem_cons_of_mem _ hm, hl⟩

theorem not_isLabel_of_jump? {name : String} (h : Frame.jump? name frames = none) :
    ¬∃ commands ∈ frames.map (·.commands), ∃ label ∈ commands, label.isLabel name = true := by
  induction frames with
  | nil => simp
  | cons frame outer ih =>
    rw [Frame.jump?] at h
    cases ha : frame.atLabel? name with
    | some other => simp [ha] at h
    | none =>
      rw [ha] at h
      rintro ⟨commands, hm, hl⟩
      rcases List.mem_cons.1 hm with rfl | hm
      · exact not_isLabel_of_atLabel? ha hl
      · exact ih h ⟨commands, hm, hl⟩

theorem Resumes.jump {name : String} {found : List Frame}
    (hj : Frame.jump? name frames = some found) (h : Remains found tale result) :
    Resumes frames (tale, .toLabel name) result := by
  induction frames with
  | nil => cases hj
  | cons frame outer ih =>
    rw [Frame.jump?] at hj
    cases ha : frame.atLabel? name with
    | some other =>
      rw [ha] at hj
      cases hj
      obtain ⟨hc, hl⟩ := fromLabel?_of_atLabel? ha
      obtain _ | ⟨ht, hr⟩ := h
      rw [hc] at ht
      exact .inside ((follows_toLabel hl).2 ht) hr
    | none =>
      rw [ha] at hj
      exact .inside (.pastLabel (fromLabel?_of_atLabel?_eq_none ha)) (ih hj)

theorem Remains.enter {body : List Command}
    (h : Remains (.start body :: frame :: outer) tale result) :
    ∃ exit next, Tells (frame.commands :: outer.map (·.commands)) body body tale exit ∧
      Follows (outer.map (·.commands)) frame.commands frame.next.unread exit next ∧
      Resumes outer next result := by
  obtain _ | ⟨ht, _ | ⟨hf, hr⟩⟩ := h
  exact ⟨_, _, ht, hf, hr⟩

theorem Remains.current {command : Command} {exit : Tale × Exit}
    (hc : frame.current? = some command)
    (hk : command.continuesChain = true → frame.branchTaken = false)
    (ht : Tells (outer.map (·.commands)) frame.commands (command :: frame.ahead.tail) tale exit)
    (hr : Resumes outer exit result) : Remains (frame :: outer) tale result := by
  refine .walking ?_ hr
  rw [Frame.unread_of_current? hc hk]
  exact ht

theorem Remains.outsideChain {command : Command} {exit : Tale × Exit}
    (hc : frame.current? = some command) (hk : command.continuesChain = false)
    (ht : Tells (outer.map (·.commands)) frame.commands (command :: frame.ahead.tail) tale exit)
    (hr : Resumes outer exit result) : Remains (frame :: outer) tale result :=
  .current hc (by simp [hk]) ht hr

/-- The tale after a step has ended or has come to a body, by which no cues are given. -/
def afterExecution (tale : Tale) : Execution → Tale
  | .descend _ => tale
  | .stop outcome =>
    { tale with
      store := outcome.store
      told := outcome.cues.reverse.map .ofCue ++ tale.told }

/-- The story that is left to frames which may wait: at a line, what comes after it; at a menu,
the first choice that it has and what comes after the menu. -/
def Awaits (tale : Tale) (result : Tale × Ending) : List Frame → Prop
  | [] => Remains [] tale result
  | frame :: outer =>
    if frame.waiting then
      match frame.current? with
      | some (.menu offered) =>
        match pick? offered tale.choices with
        | some (choice, unused) =>
          Remains (.start choice.body :: frame.answered.endChain :: outer)
            { tale with choices := unused } result
        | none => result = ({ tale with choices := [] }, .choicesUsedUp)
      | _ => Remains (frame.answered.endChain.next :: outer) tale result
    else Remains (frame :: outer) tale result

theorem awaits_of_not_waiting (frame : Frame) (hw : frame.waiting = false) :
    Awaits tale result (frame :: outer) ↔ Remains (frame :: outer) tale result := by
  simp [Awaits, hw]

theorem awaits_line (frame : Frame) {speaker : Option String} {text : String}
    (hw : frame.waiting = true) (hc : frame.current? = some (.dialogue speaker text)) :
    Awaits tale result (frame :: outer) ↔
      Remains (frame.answered.endChain.next :: outer) tale result := by
  simp [Awaits, hw, hc]

theorem awaits_choice (frame : Frame) {offered : List (Choice Command)} {choice : Choice Command}
    {unused : List Nat} (hw : frame.waiting = true) (hc : frame.current? = some (.menu offered))
    (hp : pick? offered tale.choices = some (choice, unused)) :
    Awaits tale result (frame :: outer) ↔
      Remains (.start choice.body :: frame.answered.endChain :: outer)
        { tale with choices := unused } result := by
  simp [Awaits, hw, hc, hp]

theorem awaits_usedUp (frame : Frame) {offered : List (Choice Command)} (hw : frame.waiting = true)
    (hc : frame.current? = some (.menu offered)) (hp : pick? offered tale.choices = none) :
    Awaits tale result (frame :: outer) ↔
      result = ({ tale with choices := [] }, .choicesUsedUp) := by
  simp [Awaits, hw, hc, hp]

theorem remains_of_jump? {name : String} {found : List Frame}
    (hj : Frame.jump? name frames = some found) (h : Awaits tale result found) :
    Remains found tale result := by
  obtain ⟨top, rest, rfl, hw⟩ := Frame.not_waiting_of_jump? hj
  exact (awaits_of_not_waiting top hw).1 h

/-- What an execution without input leaves is the rest of what there was before it. -/
theorem remains_of_executes {execution : Execution}
    (he : Execution.Executes tale.store none frame outer execution) (hw : frame.waiting = false)
    (h : Awaits (afterExecution tale execution) result execution.frames) :
    Remains (frame :: outer) tale result := by
  cases he with
  | atEnd => exact (awaits_of_not_waiting frame hw).1 h
  | @plain command hc hp =>
    have hk : command.continuesChain = false := by
      cases command <;> simp_all [isPlain, continuesChain]
    obtain _ | ⟨ht, hr⟩ := (awaits_of_not_waiting frame.endChain.next hw).1 h
    exact .outsideChain hc hk (.plain hp ht) hr
  | label hc =>
    obtain ⟨exit, next, ht, hf, hr⟩ := ((awaits_of_not_waiting (.start _) rfl).1 h).enter
    exact .outsideChain hc rfl (.label ht hf) hr
  | @shown speaker text hc =>
    obtain _ | ⟨ht, hr⟩ := (awaits_line frame.endChain.asking rfl hc).1 h
    refine .outsideChain hc rfl ?_ hr
    cases speaker <;> exact .dialogue ht
  | dismissed _ hwaits | kept _ hwaits => simp [hw] at hwaits
  | emptyMenu hc =>
    obtain _ | ⟨ht, hr⟩ := (awaits_of_not_waiting frame.endChain.next hw).1 h
    exact .outsideChain hc rfl (.emptyMenu ht) hr
  | @offered choices hc hne =>
    have hp : pick? choices (tale.say (.choices (choices.map (·.prompt)))).choices =
        pick? choices tale.choices := rfl
    cases hpick : pick? choices tale.choices with
    | some picked =>
      rw [hpick] at hp
      have h := (awaits_choice frame.endChain.asking rfl hc hp).1 h
      obtain ⟨exit, next, ht, hf, hr⟩ := h.enter
      exact .outsideChain hc rfl (.menu hne hpick ht hf) hr
    | none =>
      rw [hpick] at hp
      rw [(awaits_usedUp frame.endChain.asking rfl hc hp).1 h]
      exact .outsideChain hc rfl (.usedUp hne hpick) .ended
  | chosen _ _ hwaits | declined _ _ hwaits => simp [hw] at hwaits
  | skipped hc hk ht =>
    obtain _ | ⟨hn, hr⟩ := (awaits_of_not_waiting frame.next hw).1 h
    refine .walking ?_ hr
    rw [Frame.unread_of_skipped hc hk ht]
    exact hn
  | opened hc ho hk =>
    obtain ⟨exit, next, ht, hf, hr⟩ := ((awaits_of_not_waiting (.start _) rfl).1 h).enter
    exact .current hc hk (.opened ho ht hf) hr
  | failed hc hb ho hk =>
    obtain _ | ⟨ht, hr⟩ := (awaits_of_not_waiting frame.endChain.next hw).1 h
    exact .current hc hk (.failed hb ho ht) hr
  | @jumped name found hc hj =>
    obtain _ | ⟨hf, hr⟩ := Resumes.jump hj (remains_of_jump? hj h)
    exact .outsideChain hc rfl (.jump (exists_isLabel_of_jump? hj) hf) hr
  | strayJump hc hj =>
    obtain _ | ⟨ht, hr⟩ := (awaits_of_not_waiting frame.endChain.next hw).1 h
    exact .outsideChain hc rfl (.strayJump (not_isLabel_of_jump? hj) ht) hr
  | finished hc =>
    obtain _ | _ := h
    exact .outsideChain hc rfl .finish .ended

end Narration

end StoryScript
