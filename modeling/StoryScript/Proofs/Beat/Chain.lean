import Mathlib.Data.List.Infix
import Mathlib.Data.List.TakeWhile
import Mathlib.Tactic.Common
import StoryScript.Proofs.Beat.Moves

/-! # Chains of branches

A chain is a group of branches that stand one after another in a list, of which only the first one
may begin a new chain. A frame that comes to a chain comes to its first member: a jump leads to a
label, so no beat leads from elsewhere into the middle of a chain.
-/

namespace StoryScript

/-- A chain of branches in a list of commands, with what stands before it and after it. -/
structure Chain where
  before : List Command
  first : Command
  rest : List Command
  after : List Command
  isBranch_first : first.isBranch = true
  begins : first.continuesChain = true → ∀ last ∈ before.getLast?, last.isBranch = false
  continues : ∀ command ∈ rest, command.continuesChain = true
  ends : ∀ next ∈ after.head?, next.continuesChain = false

namespace Chain

def members (chain : Chain) : List Command :=
  chain.first :: chain.rest

def commands (chain : Chain) : List Command :=
  chain.before ++ (chain.members ++ chain.after)

/-- A frame walks the list of a chain and stands at the member with the number given. -/
structure StandsIn (chain : Chain) (frame : Frame) (place : Nat) : Prop where
  commands : frame.commands = chain.commands
  ahead : frame.ahead = chain.members.drop place ++ chain.after
  lt : place < chain.members.length

variable {chain : Chain} {frame : Frame} {place other : Nat}

theorem exists_of_isBranch {before more after : List Command} {command : Command}
    (hb : command.isBranch = true) (hmore : ∀ next ∈ more, next.continuesChain = true)
    (hafter : ∀ next ∈ after.head?, next.continuesChain = false) :
    ∃ chain : Chain, chain.commands = before ++ (command :: more ++ after) ∧
      chain.after = after ∧ ∃ place, chain.members.drop place = command :: more := by
  induction before using List.reverseRecOn generalizing command more with
  | nil => exact ⟨⟨[], command, more, after, hb, by simp, hmore, hafter⟩, rfl, rfl, 0, rfl⟩
  | append_singleton before last ih =>
    by_cases hbegins : command.continuesChain = true ∧ last.isBranch = true
    · obtain ⟨chain, hcommands, rfl, place, hplace⟩ :=
        ih hbegins.2 (List.forall_mem_cons.2 ⟨hbegins.1, hmore⟩)
      refine ⟨chain, by simpa using hcommands, rfl, place + 1, ?_⟩
      rw [← List.tail_drop, hplace, List.tail_cons]
    · refine ⟨⟨before ++ [last], command, more, after, hb, ?_, hmore, hafter⟩, rfl, rfl, 0, rfl⟩
      simpa using fun hc => hbegins hc

theorem exists_standsIn {command : Command} (hs : frame.ahead <:+ frame.commands)
    (hc : frame.current? = some command) (hb : command.isBranch = true) :
    ∃ (chain : Chain) (place : Nat), chain.StandsIn frame place := by
  obtain ⟨before, hbefore⟩ := hs
  have hahead := Frame.ahead_eq_of_current? hc
  obtain ⟨chain, hcommands, hafter, place, hplace⟩ :=
    @exists_of_isBranch before (frame.ahead.tail.takeWhile (·.continuesChain))
      (frame.ahead.tail.dropWhile (·.continuesChain)) command hb
      (fun next hn => List.mem_takeWhile_imp hn)
      (fun next hn => by
        have hhead := List.head?_dropWhile_not (·.continuesChain) frame.ahead.tail
        rw [Option.mem_def.1 hn] at hhead
        exact hhead)
  rw [List.cons_append, List.takeWhile_append_dropWhile, ← hahead, hbefore] at hcommands
  refine ⟨chain, place, hcommands.symm, ?_, ?_⟩
  · rw [hplace, hafter, List.cons_append, List.takeWhile_append_dropWhile, ← hahead]
  · by_contra hge
    rw [List.drop_eq_nil_of_le (Nat.le_of_not_lt hge)] at hplace
    cases hplace

namespace StandsIn

theorem current? (h : chain.StandsIn frame place) :
    ∃ member, chain.members[place]? = some member ∧ frame.current? = some member ∧
      member.isBranch = true := by
  have hmember := List.getElem?_eq_getElem h.lt
  refine ⟨_, hmember, ?_, ?_⟩
  · rw [Frame.current?, h.ahead, List.drop_eq_getElem_cons h.lt]
    rfl
  · obtain hfirst | hrest := List.mem_cons.1 (List.getElem_mem h.lt)
    · rw [hfirst]
      exact chain.isBranch_first
    · exact Command.isBranch_of_continuesChain (chain.continues _ hrest)

theorem current?_ne_label (h : chain.StandsIn frame place) (name : String) (body : List Command) :
    frame.current? ≠ some (.label name body) := by
  intro hc
  obtain ⟨member, -, hcurrent, hbranch⟩ := h.current?
  rw [hc, Option.some.injEq] at hcurrent
  simp [← hcurrent, Command.isBranch] at hbranch

theorem place_eq (h : chain.StandsIn frame place) {moved : Frame}
    (h' : chain.StandsIn moved other) (steps : Nat)
    (hahead : moved.ahead = frame.ahead.drop steps) : other = place + steps := by
  have hlength := congrArg List.length hahead
  have hlt := h.lt
  have hlt' := h'.lt
  rw [h.ahead, h'.ahead] at hlength
  simp only [List.length_drop, List.length_append] at hlength
  omega

theorem of_next (hs : frame.ahead <:+ frame.commands) {moved : Frame}
    (hc : moved.commands = frame.commands) (ha : moved.ahead = frame.ahead.tail)
    (h : chain.StandsIn moved (place + 1)) : chain.StandsIn frame place := by
  have hlt := h.lt
  have hcommands := hc.symm.trans h.commands
  refine ⟨hcommands, ?_, Nat.lt_of_succ_lt hlt⟩
  have hsuffix : chain.members.drop place ++ chain.after <:+ frame.commands := by
    refine ⟨chain.before ++ chain.members.take place, ?_⟩
    rw [hcommands, Chain.commands, List.append_assoc, ← List.append_assoc (chain.members.take _),
      List.take_append_drop]
  have hlength : frame.ahead.length = (chain.members.drop place ++ chain.after).length := by
    have htail := congrArg List.length (ha.symm.trans h.ahead)
    simp only [List.length_tail, List.length_append, List.length_drop] at htail ⊢
    omega
  exact (List.suffix_of_suffix_length_le hs hsuffix hlength.le).eq_of_length hlength

theorem place_of_start {body : List Command} (h : chain.StandsIn (.start body) place) :
    place = 0 := by
  have hlength := congrArg List.length (h.commands.symm.trans h.ahead)
  have hlt := h.lt
  simp only [Chain.commands, List.length_append, List.length_drop] at hlength
  omega

end StandsIn

end Chain

namespace Frame

variable {chain : Chain} {frame first moved : Frame} {outer frames found inner other : List Frame}
  {place : Nat}

theorem eq_of_append_eq (h : inner ++ frame :: outer = other ++ moved :: outer) :
    inner = other ∧ frame = moved := by
  obtain ⟨hinner, hframe⟩ := List.append_inj' h rfl
  exact ⟨hinner, (List.cons.inj hframe).1⟩

/-- While a body is walked inside a frame that stands in a chain, the frame stays as it is until the
body is left, and then it moves on. -/
theorem Moves.inside (h : Moves frames found) (hf : frames = first :: inner ++ frame :: outer)
    (hfound : found = other ++ moved :: outer) (hin : chain.StandsIn moved place) :
    other ≠ [] ∧ moved = frame ∨ other = [] ∧ moved = frame.next := by
  have hkept {start : Frame} {inside : List Frame}
      (hsame : start :: inside ++ frame :: outer = other ++ moved :: outer) :
      other ≠ [] ∧ moved = frame := by
    obtain ⟨rfl, rfl⟩ := eq_of_append_eq hsame
    exact ⟨List.cons_ne_nil _ _, rfl⟩
  cases h with
  | stays => exact .inl (hkept (hf.symm.trans hfound))
  | marks top waiting branchTaken htop =>
    obtain ⟨rfl, rfl⟩ := List.cons.inj (htop.symm.trans hf)
    exact .inl (hkept hfound)
  | passes top waiting branchTaken htop =>
    obtain ⟨rfl, rfl⟩ := List.cons.inj (htop.symm.trans hf)
    exact .inl (hkept hfound)
  | enters top waiting branchTaken body htop _ _ =>
    obtain ⟨rfl, rfl⟩ := List.cons.inj (htop.symm.trans hf)
    exact .inl (@hkept _ (top.marked waiting branchTaken :: inner) hfound)
  | jumps skipped owner _ hsplit _ hlabel =>
    cases other with
    | nil =>
      obtain ⟨rfl, -⟩ := List.cons.inj hfound
      exact absurd hlabel (hin.current?_ne_label _ _)
    | cons start inside =>
      obtain ⟨rfl, rfl⟩ := List.cons.inj hfound
      have hsame :
          first :: inner ++ frame :: outer = (skipped ++ owner :: inside) ++ moved :: outer := by
        rw [List.append_assoc]
        exact hf.symm.trans hsplit
      exact .inl ⟨List.cons_ne_nil _ _, (eq_of_append_eq hsame).2.symm⟩
  | leaves htop _ =>
    obtain ⟨rfl, rfl⟩ := List.cons.inj (htop.symm.trans hf)
    cases inner with
    | nil =>
      have hleft : [] ++ frame.next :: outer = other ++ moved :: outer := hfound
      obtain ⟨rfl, rfl⟩ := eq_of_append_eq hleft
      exact .inr ⟨rfl, rfl⟩
    | cons second inner => exact .inl (hkept hfound)
  | ends => simp at hfound

/-- A frame that stands in a chain after a beat has stood in it before, unless it is at the first
member. -/
theorem Moves.walks (h : Moves frames found) {script : List Command} (hs : Stack script frames)
    (hfound : found = other ++ moved :: outer) (hin : chain.StandsIn moved place) :
    (other = [] ∧ place = 0) ∨
      ∃ inner frame before, frames = inner ++ frame :: outer ∧ chain.StandsIn frame before := by
  have hnext {inner : List Frame} {top : Frame} (hf : frames = inner ++ top :: outer)
      (hc : moved.commands = top.commands) (ha : moved.ahead = top.ahead.tail) :
      place = 0 ∨ chain.StandsIn top (place - 1) := by
    rw [hf] at hs
    cases place with
    | zero => exact .inl rfl
    | succ before => exact .inr (.of_next hs.drop.1 hc ha hin)
  cases h with
  | stays => exact .inr ⟨other, moved, place, hfound, hin⟩
  | marks top waiting branchTaken htop =>
    cases other with
    | nil =>
      obtain ⟨rfl, rfl⟩ := List.cons.inj hfound
      exact .inr ⟨[], top, place, htop, hin.commands, hin.ahead, hin.lt⟩
    | cons start inside =>
      obtain ⟨-, rfl⟩ := List.cons.inj hfound
      exact .inr ⟨top :: inside, moved, place, htop, hin⟩
  | passes top waiting branchTaken htop =>
    cases other with
    | nil =>
      obtain ⟨rfl, rfl⟩ := List.cons.inj hfound
      obtain rfl | hbefore := @hnext [] top htop rfl rfl
      · exact .inl ⟨rfl, rfl⟩
      · exact .inr ⟨[], top, _, htop, hbefore⟩
    | cons start inside =>
      obtain ⟨-, rfl⟩ := List.cons.inj hfound
      exact .inr ⟨top :: inside, moved, place, htop, hin⟩
  | enters top waiting branchTaken body htop _ _ =>
    match other with
    | [] =>
      obtain ⟨rfl, -⟩ := List.cons.inj hfound
      exact .inl ⟨rfl, hin.place_of_start⟩
    | [start] =>
      obtain ⟨-, hfound⟩ := List.cons.inj hfound
      obtain ⟨rfl, rfl⟩ := List.cons.inj hfound
      exact .inr ⟨[], top, place, htop, hin.commands, hin.ahead, hin.lt⟩
    | start :: second :: inside =>
      obtain ⟨-, hfound⟩ := List.cons.inj hfound
      obtain ⟨-, rfl⟩ := List.cons.inj hfound
      exact .inr ⟨top :: inside, moved, place, htop, hin⟩
  | jumps skipped owner _ hsplit _ hlabel =>
    cases other with
    | nil =>
      obtain ⟨rfl, -⟩ := List.cons.inj hfound
      exact absurd hlabel (hin.current?_ne_label _ _)
    | cons start inside =>
      obtain ⟨-, rfl⟩ := List.cons.inj hfound
      refine .inr ⟨skipped ++ owner :: inside, moved, place, ?_, hin⟩
      rw [List.append_assoc]
      exact hsplit
  | @leaves top around htop _ =>
    cases around with
    | nil => simp at hfound
    | cons parent around =>
      cases other with
      | nil =>
        obtain ⟨rfl, rfl⟩ := List.cons.inj hfound
        obtain rfl | hbefore := @hnext [top] parent htop rfl rfl
        · exact .inl ⟨rfl, rfl⟩
        · exact .inr ⟨[top], parent, _, htop, hbefore⟩
      | cons start inside =>
        obtain ⟨-, rfl⟩ := List.cons.inj hfound
        exact .inr ⟨top :: parent :: inside, moved, place, htop, hin⟩
  | ends => simp at hfound

end Frame

end StoryScript
