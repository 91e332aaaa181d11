import Mathlib.Tactic.Common
import StoryScript.Proofs.Execution
import StoryScript.Transcript

/-! # Narrations

A script can be told by recursion on its commands, without frames and without steps. A list of
commands is told from left to right and left past its end, for a label of a list around it, or
because the story is over. The recursion has fuel, since jumps may lead back without end, and
more fuel does not change a story that has been told.
-/

namespace StoryScript

/-- A story while it is told: the store, the choices not used so far, and the events so far,
the last one first. -/
structure Tale where
  store : Store
  choices : List Nat
  told : List Event

/-- How a list of commands is left. -/
inductive Exit where
  /-- The commands have come to their end. -/
  | through
  /-- A jump leads to a label of a list around this one. -/
  | toLabel (name : String)
  | ended (ending : Ending)

def Exit.ending : Exit → Ending
  | ended ending => ending
  | _ => .finished

namespace Tale

def say (tale : Tale) (event : Event) : Tale :=
  { tale with told := event :: tale.told }

def line (tale : Tale) (speaker : Option String) (text : String) : Event :=
  match speaker with
  | some id => .dialogue (tale.store.displayName id) text
  | none => .narration text

def act (tale : Tale) (command : Command) : Tale :=
  { tale with
    store := (command.act tale.store).1
    told := (command.act tale.store).2.reverse.map .ofCue ++ tale.told }

end Tale

namespace Command

/-- The commands of a list from its first label with the name given on, if it has one. -/
def fromLabel? (name : String) (commands : List Command) : Option (List Command) :=
  match commands.dropWhile (!·.isLabel name) with
  | [] => none
  | found :: later => some (found :: later)

def pick? (offered : List (Choice Command)) : List Nat → Option (Choice Command × List Nat)
  | [] => none
  | index :: later =>
    match offered[index]? with
    | some choice => some (choice, later)
    | none => pick? offered later

end Command

namespace Narration

open Command

/-- How a list of commands is told, given the lists around it and the whole list: from some
commands of it on. -/
abbrev Teller :=
  List (List Command) → List Command → List Command → Tale → Option (Tale × Exit)

/-- What follows a body of a command: the commands after it, or those from a label of the list
`here` on if the body is left for it. -/
def follow (teller : Teller) (around : List (List Command)) (here after : List Command) :
    Option (Tale × Exit) → Option (Tale × Exit)
  | none => none
  | some (tale, .through) => teller around here after tale
  | some (tale, .toLabel name) =>
    match fromLabel? name here with
    | some target => teller around here target tale
    | none => some (tale, .toLabel name)
  | some (tale, .ended ending) => some (tale, .ended ending)

def inside (teller : Teller) (around : List (List Command)) (here body after : List Command)
    (tale : Tale) : Option (Tale × Exit) :=
  follow teller around here after (teller (here :: around) body body tale)

/-- A chain of branches, of which the first that holds is told, and what follows it. -/
def tellChain (teller : Teller) (around : List (List Command)) (here chain after : List Command)
    (tale : Tale) : Option (Tale × Exit) :=
  match chain.findSome? (·.openBody? tale.store) with
  | some body => inside teller around here body after tale
  | none => teller around here after tale

/-- A menu with choices, of which the first that is in range is told, and what follows it. The
story is over if there is none. -/
def tellMenu (teller : Teller) (around : List (List Command)) (here after : List Command)
    (offered : List (Choice Command)) (tale : Tale) : Option (Tale × Exit) :=
  match pick? offered tale.choices with
  | some (choice, unused) =>
    inside teller around here choice.body after { tale with choices := unused }
  | none => some ({ tale with choices := [] }, .ended .choicesUsedUp)

/-- A jump. Without a label to go to it is passed. -/
def tellJump (teller : Teller) (around : List (List Command)) (here after : List Command)
    (name : String) (tale : Tale) : Option (Tale × Exit) :=
  if (here :: around).any fun commands => commands.any (·.isLabel name) then
    follow teller around here after (some (tale, .toLabel name))
  else teller around here after tale

/-- A command of the list `here` and the commands after it, told with a teller for what comes
inside the command and after it. -/
def tellCommand (teller : Teller) (around : List (List Command)) (here : List Command)
    (command : Command) (later : List Command) (tale : Tale) : Option (Tale × Exit) :=
  match command with
  | .label _ body => inside teller around here body later tale
  | .dialogue speaker text => teller around here later (tale.say (tale.line speaker text))
  | .menu choices =>
    if choices.isEmpty then teller around here later tale
    else tellMenu teller around here later choices (tale.say (.choices (choices.map (·.prompt))))
  | .jump name => tellJump teller around here later name tale
  | .finish => some (tale, .ended .finished)
  | command =>
    if command.isBranch then
      tellChain teller around here (command :: later.takeWhile (·.continuesChain))
        (later.dropWhile (·.continuesChain)) tale
    else teller around here later (tale.act command)

/-- The commands of the list `here` from a given place on, told with a teller for what comes
inside the first of them and after it. -/
def tellWith (teller : Teller) : Teller
  | _, _, [], tale => some (tale, .through)
  | around, here, command :: later, tale => tellCommand teller around here command later tale

/-- The commands of a list from a given place on, told with at most `fuel` commands in one
another; none if that is not enough. -/
def tell : Nat → Teller
  | 0 => fun _ _ _ _ => none
  | fuel + 1 => tellWith (tell fuel)

def Extends (longer shorter : Teller) : Prop :=
  ∀ around here ahead tale result, shorter around here ahead tale = some result →
    longer around here ahead tale = some result

variable {longer shorter : Teller} {around : List (List Command)} {here body after : List Command}
  {tale : Tale} {result : Tale × Exit}

theorem follow_extends (h : Extends longer shorter) {exit : Option (Tale × Exit)}
    (hs : follow shorter around here after exit = some result) :
    follow longer around here after exit = some result := by
  match exit with
  | none => cases hs
  | some (tale, .through) => exact h _ _ _ _ _ hs
  | some (tale, .ended ending) => exact hs
  | some (tale, .toLabel name) =>
    simp only [follow] at hs ⊢
    split at hs
    · exact h _ _ _ _ _ hs
    · exact hs

theorem inside_extends (h : Extends longer shorter)
    (hs : inside shorter around here body after tale = some result) :
    inside longer around here body after tale = some result := by
  unfold inside at hs ⊢
  cases hb : shorter (here :: around) body body tale with
  | none => simp [hb, follow] at hs
  | some exit =>
    rw [h _ _ _ _ _ hb, ← hb]
    exact follow_extends h hs

theorem tellChain_extends (h : Extends longer shorter) {chain : List Command}
    (hs : tellChain shorter around here chain after tale = some result) :
    tellChain longer around here chain after tale = some result := by
  unfold tellChain at hs ⊢
  split at hs
  · exact inside_extends h hs
  · exact h _ _ _ _ _ hs

theorem tellMenu_extends (h : Extends longer shorter) {offered : List (Choice Command)}
    (hs : tellMenu shorter around here after offered tale = some result) :
    tellMenu longer around here after offered tale = some result := by
  unfold tellMenu at hs ⊢
  split at hs
  · exact inside_extends h hs
  · exact hs

theorem tellJump_extends (h : Extends longer shorter) {name : String}
    (hs : tellJump shorter around here after name tale = some result) :
    tellJump longer around here after name tale = some result := by
  unfold tellJump at hs ⊢
  split_ifs at hs ⊢
  · exact follow_extends h hs
  · exact h _ _ _ _ _ hs

theorem tellCommand_extends (h : Extends longer shorter) {command : Command}
    (hs : tellCommand shorter around here command after tale = some result) :
    tellCommand longer around here command after tale = some result := by
  unfold tellCommand at hs ⊢
  split at hs
  · exact inside_extends h hs
  · exact h _ _ _ _ _ hs
  · split_ifs at hs ⊢
    · exact h _ _ _ _ _ hs
    · exact tellMenu_extends h hs
  · exact tellJump_extends h hs
  · exact hs
  · split_ifs at hs ⊢
    · exact tellChain_extends h hs
    · exact h _ _ _ _ _ hs

theorem tellWith_extends (h : Extends longer shorter) :
    Extends (tellWith longer) (tellWith shorter) := by
  intro around here ahead tale result hs
  cases ahead with
  | nil => exact hs
  | cons command later => exact tellCommand_extends h hs

theorem tell_extends {fuel more : Nat} (h : fuel ≤ more) : Extends (tell more) (tell fuel) := by
  induction fuel generalizing more with
  | zero =>
    intro _ _ _ _ _ hs
    cases hs
  | succ fuel ih =>
    obtain ⟨more, rfl⟩ := Nat.exists_eq_add_one_of_ne_zero (Nat.ne_zero_of_lt h)
    exact tellWith_extends (ih (Nat.le_of_succ_le_succ h))

end Narration

/-- The events of a script told to its end, or to a menu at which the choices are used up, and
which of the two it is; none if the fuel is not enough. -/
def narrate? (fuel : Nat) (script : List Command) (choices : List Nat) :
    Option (List Event × Ending) :=
  (Narration.tell fuel [] script script ⟨∅, choices, []⟩).map fun (tale, exit) =>
    (tale.told.reverse, exit.ending)

end StoryScript
