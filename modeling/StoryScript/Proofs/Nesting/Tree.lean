import StoryScript.Proofs.Nesting.Entries
import StoryScript.Proofs.Statement
import StoryScript.Script.Reader

/-! # The tree of an outline

A menu keeps its choices alone. Visited from the top, the commands of a script are those of its
entries in their order and at their depths, without the entries that stand directly in a menu and
are no choices, and without what is inside these.
-/

namespace StoryScript

namespace Command

mutual

/-- A command and the commands inside it in their order, each without what is inside it and with its
depth. The choices of a menu are one level deeper than the menu, and their bodies one more. -/
def levels (depth : Nat) : Command → List (Nat × Command)
  | .label name body => (depth, .label name []) :: levelsOf (depth + 1) body
  | .menu choices => (depth, .menu []) :: levelsOfChoices (depth + 1) choices
  | .strayChoice choice => levelsOfChoice depth choice
  | .ifBranch condition body => (depth, .ifBranch condition []) :: levelsOf (depth + 1) body
  | .elifBranch condition body => (depth, .elifBranch condition []) :: levelsOf (depth + 1) body
  | .elseBranch body => (depth, .elseBranch []) :: levelsOf (depth + 1) body
  | command => [(depth, command)]

def levelsOf (depth : Nat) : List Command → List (Nat × Command)
  | [] => []
  | command :: commands => command.levels depth ++ levelsOf depth commands

def levelsOfChoice (depth : Nat) : Choice Command → List (Nat × Command)
  | ⟨prompt, body⟩ => (depth, .strayChoice ⟨prompt, []⟩) :: levelsOf (depth + 1) body

def levelsOfChoices (depth : Nat) : List (Choice Command) → List (Nat × Command)
  | [] => []
  | choice :: choices => levelsOfChoice depth choice ++ levelsOfChoices depth choices

end

/-- A command and the commands inside it in their order, each without what is inside it. -/
def parts (command : Command) : List Command :=
  (command.levels 0).map (·.2)

def partsOf (commands : List Command) : List Command :=
  (levelsOf 0 commands).map (·.2)

@[simp] theorem partsOf_cons (command : Command) (commands : List Command) :
    partsOf (command :: commands) = command.parts ++ partsOf commands :=
  List.map_append

mutual

theorem map_snd_levels (depth : Nat) (command : Command) :
    (command.levels depth).map (·.2) = command.parts := by
  cases command with
  | label name body | ifBranch condition body | elifBranch condition body | elseBranch body =>
    simp only [parts, levels, List.map_cons, map_snd_levelsOf _ body]
  | menu choices =>
    simp only [parts, levels, List.map_cons,
      map_snd_levelsOfChoices (depth + 1) (0 + 1) choices]
  | strayChoice choice => exact map_snd_levelsOfChoice depth 0 choice
  | _ => rfl

theorem map_snd_levelsOf (depth : Nat) (commands : List Command) :
    (levelsOf depth commands).map (·.2) = partsOf commands := by
  cases commands with
  | nil => rfl
  | cons command commands =>
    rw [levelsOf, List.map_append, map_snd_levels depth command, map_snd_levelsOf depth commands,
      partsOf_cons]

theorem map_snd_levelsOfChoice (depth other : Nat) (choice : Choice Command) :
    (levelsOfChoice depth choice).map (·.2) = (levelsOfChoice other choice).map (·.2) := by
  obtain ⟨prompt, body⟩ := choice
  simp only [levelsOfChoice, List.map_cons, map_snd_levelsOf _ body]

theorem map_snd_levelsOfChoices (depth other : Nat) (choices : List (Choice Command)) :
    (levelsOfChoices depth choices).map (·.2) = (levelsOfChoices other choices).map (·.2) := by
  cases choices with
  | nil => rfl
  | cons choice choices =>
    rw [levelsOfChoices, levelsOfChoices, List.map_append, List.map_append,
      map_snd_levelsOfChoice depth other choice, map_snd_levelsOfChoices depth other choices]

end

end Command

namespace Script

namespace Entry

def isChoice : Entry → Bool
  | node _ (.choice _) _ => true
  | _ => false

def head : Entry → Command
  | leaf _ command => command
  | node line header _ => (node line header []).toCommand

/-- An entry on the way through an outline, with the number of headers around it and whether a menu
drops it. -/
structure Visit where
  depth : Nat
  entry : Entry
  dropped : Bool

mutual

def visit (depth : Nat) (dropped : Bool) : Entry → List Visit
  | leaf line command => [⟨depth, leaf line command, dropped⟩]
  | node line header entries =>
    ⟨depth, node line header entries, dropped⟩ ::
      visitAll (depth + 1) dropped (header == .menu) entries

/-- The entries of a body and the entries inside them in their order. An entry is dropped if it is
no choice and stands directly in a menu, or if it is inside an entry that is dropped. -/
def visitAll (depth : Nat) (dropped inMenu : Bool) : List Entry → List Visit
  | [] => []
  | entry :: entries =>
    entry.visit depth (dropped || inMenu && !entry.isChoice) ++
      visitAll depth dropped inMenu entries

end

def kept (entries : List Entry) : List Visit :=
  (visitAll 0 false false entries).filter (!·.dropped)

mutual

theorem entry_visit (depth : Nat) (dropped : Bool) (entry : Entry) :
    (entry.visit depth dropped).map (·.entry) = entry.withInner := by
  cases entry with
  | leaf line command => rfl
  | node line header entries =>
    rw [visit, List.map_cons, entry_visitAll, withInner]

theorem entry_visitAll (depth : Nat) (dropped inMenu : Bool) (entries : List Entry) :
    (visitAll depth dropped inMenu entries).map (·.entry) = preorder entries := by
  cases entries with
  | nil => rfl
  | cons entry entries =>
    rw [visitAll, List.map_append, entry_visit, entry_visitAll, preorder]

end

mutual

theorem dropped_of_mem_visit {depth : Nat} {entry : Entry} {found : Visit}
    (h : found ∈ entry.visit depth true) : found.dropped = true := by
  cases entry with
  | leaf line command =>
    rw [visit, List.mem_singleton] at h
    rw [h]
  | node line header entries =>
    rw [visit] at h
    rcases List.mem_cons.1 h with rfl | h
    · rfl
    · exact dropped_of_mem_visitAll h

theorem dropped_of_mem_visitAll {depth : Nat} {inMenu : Bool} {entries : List Entry}
    {found : Visit} (h : found ∈ visitAll depth true inMenu entries) : found.dropped = true := by
  cases entries with
  | nil => cases h
  | cons entry entries =>
    rw [visitAll, Bool.true_or] at h
    rcases List.mem_append.1 h with h | h
    · exact dropped_of_mem_visit h
    · exact dropped_of_mem_visitAll h

end

def heads (visited : List Visit) : List (Nat × Command) :=
  (visited.filter (!·.dropped)).map fun visit => (visit.depth, visit.entry.head)

theorem heads_cons_false (depth : Nat) (entry : Entry) (visited : List Visit) :
    heads (⟨depth, entry, false⟩ :: visited) = (depth, entry.head) :: heads visited := rfl

theorem heads_append (visited more : List Visit) :
    heads (visited ++ more) = heads visited ++ heads more := by
  rw [heads, List.filter_append, List.map_append]
  rfl

theorem heads_visit_true (depth : Nat) (entry : Entry) : heads (entry.visit depth true) = [] := by
  rw [heads, List.filter_eq_nil_iff.2, List.map_nil]
  intro found h
  simp [dropped_of_mem_visit h]

theorem exists_of_isChoice {entry : Entry} (h : entry.isChoice = true) :
    ∃ line prompt body, entry = node line (.choice prompt) body := by
  match entry with
  | .node line (.choice prompt) body => exact ⟨line, prompt, body, rfl⟩

theorem toChoices_of_not_isChoice {entry : Entry} {entries : List Entry}
    (h : entry.isChoice = false) : toChoices (entry :: entries) = toChoices entries := by
  match entry with
  | .leaf .. => rfl
  | .node _ (.label _) _ => rfl
  | .node _ .menu _ => rfl
  | .node _ (.choice _) _ => cases h
  | .node _ (.ifBranch _) _ => rfl
  | .node _ (.elifBranch _) _ => rfl
  | .node _ .elseBranch _ => rfl

open Command

def IsFlat (entries : List Entry) : Prop :=
  ∀ line command, leaf line command ∈ entries → ∀ depth, command.levels depth = [(depth, command)]

mutual

theorem levels_toCommand (depth : Nat) (entry : Entry) (hflat : IsFlat entry.withInner) :
    entry.toCommand.levels depth = heads (entry.visit depth false) := by
  cases entry with
  | leaf line command => exact hflat line command List.mem_cons_self depth
  | node line header entries =>
    have hinner : IsFlat (preorder entries) :=
      fun line command h => hflat line command (List.mem_cons_of_mem _ h)
    have hbody := levelsOf_toCommands (depth + 1) entries hinner
    rw [visit, heads_cons_false]
    cases header with
    | menu =>
      exact congrArg ((depth, .menu []) :: ·)
        (levelsOfChoices_toChoices (depth + 1) entries hinner)
    | label name => exact congrArg ((depth, .label name []) :: ·) hbody
    | choice prompt => exact congrArg ((depth, .strayChoice ⟨prompt, []⟩) :: ·) hbody
    | ifBranch condition => exact congrArg ((depth, .ifBranch condition []) :: ·) hbody
    | elifBranch condition => exact congrArg ((depth, .elifBranch condition []) :: ·) hbody
    | elseBranch => exact congrArg ((depth, .elseBranch []) :: ·) hbody

theorem levelsOf_toCommands (depth : Nat) (entries : List Entry)
    (hflat : IsFlat (preorder entries)) :
    levelsOf depth (toCommands entries) = heads (visitAll depth false false entries) := by
  cases entries with
  | nil => rfl
  | cons entry entries =>
    rw [toCommands, levelsOf, visitAll, heads_append,
      levels_toCommand depth entry fun line command h =>
        hflat line command (List.mem_append_left _ h),
      levelsOf_toCommands depth entries fun line command h =>
        hflat line command (List.mem_append_right _ h)]
    rfl

theorem levelsOfChoices_toChoices (depth : Nat) (entries : List Entry)
    (hflat : IsFlat (preorder entries)) :
    levelsOfChoices depth (toChoices entries) = heads (visitAll depth false true entries) := by
  cases entries with
  | nil => rfl
  | cons entry entries =>
    have hlater := levelsOfChoices_toChoices depth entries fun line command h =>
      hflat line command (List.mem_append_right _ h)
    have hfirst := levels_toCommand depth entry fun line command h =>
      hflat line command (List.mem_append_left _ h)
    rw [visitAll, heads_append, ← hlater]
    cases hchoice : entry.isChoice with
    | true =>
      obtain ⟨line, prompt, body, rfl⟩ := exists_of_isChoice hchoice
      exact congrArg (· ++ levelsOfChoices depth (toChoices entries)) hfirst
    | false =>
      rw [toChoices_of_not_isChoice hchoice]
      exact congrArg (· ++ levelsOfChoices depth (toChoices entries))
        (heads_visit_true depth entry).symm

end

end Entry

/-! ## Simple statements -/

namespace Statement

/-- A reading whose command, if it is a simple one, has nothing inside it. -/
def IsFlat : Reading → Prop
  | .ok (.simple command) => ∀ depth, command.levels depth = [(depth, command)]
  | _ => True

theorem isFlat_of_exceptMap {α : Type} {found : Except StatementFault α} {build : α → Command}
    (h : ∀ a depth, (build a).levels depth = [(depth, build a)]) :
    IsFlat (found.map fun a => .simple (build a)) := by
  cases found with
  | error fault => exact trivial
  | ok a => exact h a

theorem isFlat_read (line : List Char) : IsFlat (read line) := by
  have hyields := yields_read line
  generalize read line = reading at hyields
  cases hyields with
  | pauseFor | playMusic | stopMusic => exact isFlat_of_exceptMap fun _ _ => rfl
  | _ => first | exact trivial | exact fun _ => rfl

end Statement

end Script

end StoryScript
