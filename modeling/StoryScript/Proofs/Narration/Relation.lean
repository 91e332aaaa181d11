import StoryScript.Proofs.Narration.Basic

/-! # Narration as a relation

A list of commands is told with some result if some fuel is enough for it. The relation has
one rule for each way in which a command is told, without mention of fuel.
-/

namespace StoryScript.Narration

open Command

variable {around : List (List Command)} {here body after later : List Command} {tale : Tale}
  {exit result : Tale × Exit}

/-- Some fuel is enough to tell the commands with the result given. -/
def Tells (around : List (List Command)) (here ahead : List Command) (tale : Tale)
    (result : Tale × Exit) : Prop :=
  ∃ fuel, tell fuel around here ahead tale = some result

/-- Some fuel is enough to tell what follows a body that has been left. -/
def Follows (around : List (List Command)) (here after : List Command)
    (exit result : Tale × Exit) : Prop :=
  ∃ fuel, follow (tell fuel) around here after (some exit) = some result

theorem follows_toLabel {name : String} {target : List Command}
    (h : fromLabel? name here = some target) :
    Follows around here after (tale, .toLabel name) result ↔
      Tells around here target tale result := by
  unfold Follows
  simp only [follow, h]
  exact Iff.rfl

theorem Follows.pastLabel {name : String} (h : fromLabel? name here = none) :
    Follows around here after (tale, .toLabel name) (tale, .toLabel name) := by
  refine ⟨0, ?_⟩
  simp only [follow, h]

theorem Follows.ended {ending : Ending} :
    Follows around here after (tale, .ended ending) (tale, .ended ending) :=
  ⟨0, rfl⟩

theorem Tells.inside (hb : Tells (here :: around) body body tale exit)
    (hf : Follows around here after exit result) :
    ∃ fuel, inside (tell fuel) around here body after tale = some result := by
  obtain ⟨fuel, hb⟩ := hb
  obtain ⟨more, hf⟩ := hf
  refine ⟨max fuel more, ?_⟩
  unfold Narration.inside
  rw [tell_extends (Nat.le_max_left fuel more) _ _ _ _ _ hb]
  exact follow_extends (tell_extends (Nat.le_max_right fuel more)) hf

namespace Tells

theorem nil : Tells around here [] tale (tale, .through) :=
  ⟨1, rfl⟩

theorem cons {command : Command}
    (h : ∃ fuel, tellCommand (tell fuel) around here command later tale = some result) :
    Tells around here (command :: later) tale result := by
  obtain ⟨fuel, h⟩ := h
  exact ⟨fuel + 1, h⟩

theorem plain {command : Command} (hp : command.isPlain = true)
    (h : Tells around here later (tale.act command) result) :
    Tells around here (command :: later) tale result := by
  obtain ⟨fuel, h⟩ := h
  refine cons ⟨fuel, ?_⟩
  cases command <;> simp only [isPlain, Bool.false_eq_true] at hp <;> exact h

theorem label {name : String} (hb : Tells (here :: around) body body tale exit)
    (hf : Follows around here later exit result) :
    Tells around here (.label name body :: later) tale result :=
  cons (hb.inside hf)

theorem dialogue {speaker : Option String} {text : String}
    (h : Tells around here later (tale.say (tale.line speaker text)) result) :
    Tells around here (.dialogue speaker text :: later) tale result :=
  cons h

theorem emptyMenu (h : Tells around here later tale result) :
    Tells around here (.menu [] :: later) tale result :=
  cons h

variable {choices : List (Choice Command)}

theorem menu {choice : Choice Command} {unused : List Nat} (hne : choices ≠ [])
    (hp : pick? choices tale.choices = some (choice, unused))
    (hb : Tells (here :: around) choice.body choice.body
      { tale.say (.choices (choices.map (·.prompt))) with choices := unused } exit)
    (hf : Follows around here later exit result) :
    Tells around here (.menu choices :: later) tale result := by
  obtain ⟨fuel, h⟩ := hb.inside hf
  refine cons ⟨fuel, ?_⟩
  simp only [tellCommand, List.isEmpty_iff, hne, ite_false, tellMenu, Tale.say, hp]
  exact h

theorem usedUp (hne : choices ≠ []) (hp : pick? choices tale.choices = none) :
    Tells around here (.menu choices :: later) tale
      ({ tale.say (.choices (choices.map (·.prompt))) with choices := [] },
        .ended .choicesUsedUp) := by
  refine cons ⟨0, ?_⟩
  simp only [tellCommand, List.isEmpty_iff, hne, ite_false, tellMenu, Tale.say, hp]

theorem jump {name : String}
    (h : ∃ commands ∈ here :: around, ∃ label ∈ commands, label.isLabel name)
    (hf : Follows around here later (tale, .toLabel name) result) :
    Tells around here (.jump name :: later) tale result := by
  obtain ⟨fuel, hf⟩ := hf
  refine cons ⟨fuel, ?_⟩
  simp only [tellCommand, tellJump, List.any_eq_true, h, ite_true]
  exact hf

theorem strayJump {name : String}
    (h : ¬∃ commands ∈ here :: around, ∃ label ∈ commands, label.isLabel name)
    (ht : Tells around here later tale result) :
    Tells around here (.jump name :: later) tale result := by
  obtain ⟨fuel, ht⟩ := ht
  refine cons ⟨fuel, ?_⟩
  simp only [tellCommand, tellJump, List.any_eq_true, h, ite_false]
  exact ht

theorem finish : Tells around here (.finish :: later) tale (tale, .ended .finished) :=
  ⟨1, rfl⟩

theorem chain {command : Command} (hb : command.isBranch = true)
    (h : ∃ fuel, tellChain (tell fuel) around here
      (command :: later.takeWhile (·.continuesChain)) (later.dropWhile (·.continuesChain)) tale =
        some result) :
    Tells around here (command :: later) tale result := by
  obtain ⟨fuel, h⟩ := h
  refine cons ⟨fuel, ?_⟩
  cases command <;> simp only [isBranch, Bool.false_eq_true] at hb <;> exact h

theorem opened {command : Command} (ho : command.openBody? tale.store = some body)
    (hb : Tells (here :: around) body body tale exit)
    (hf : Follows around here (later.dropWhile (·.continuesChain)) exit result) :
    Tells around here (command :: later) tale result := by
  obtain ⟨fuel, h⟩ := hb.inside hf
  refine chain (isBranch_of_openBody? ho) ⟨fuel, ?_⟩
  simp only [tellChain, List.findSome?_cons, ho]
  exact h

/-- After a branch that does not hold, the rest of its chain is a chain of its own. -/
theorem failed {command : Command} (hb : command.isBranch = true)
    (ho : command.openBody? tale.store = none) (h : Tells around here later tale result) :
    Tells around here (command :: later) tale result := by
  obtain ⟨fuel, h⟩ := h
  refine chain hb ?_
  simp only [tellChain, List.findSome?_cons, ho]
  cases later with
  | nil => exact ⟨fuel, h⟩
  | cons next later =>
    cases hk : next.continuesChain with
    | false =>
      refine ⟨fuel, ?_⟩
      simp only [List.takeWhile_cons, List.dropWhile_cons, hk, Bool.false_eq_true, ite_false]
      exact h
    | true =>
      obtain _ | fuel := fuel
      · cases h
      · refine ⟨fuel, ?_⟩
        simp only [List.takeWhile_cons, List.dropWhile_cons, hk, ite_true]
        cases next <;> simp only [continuesChain, Bool.false_eq_true] at hk <;> exact h

end Tells

end StoryScript.Narration
