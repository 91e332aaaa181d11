import StoryScript.Proofs.Beat.Basic
import StoryScript.Proofs.Value
import StoryScript.Proofs.Writer.Echo

/-! # Playing a script that asks what it has set

A script that sets a variable and then asks for it enters the body of its branch exactly if the
condition holds in the store with that variable alone. So what has been assigned is what the
condition reads.
-/

namespace StoryScript

open Text

def Operation.leavesStore : Operation → Bool
  | .assign _ => false
  | .replaceStore _ => false
  | _ => true

/-- The run of operations comes through a play in which a body inside the script has just been
entered. -/
def Play.Enters (play : Play) (operations : List Operation) (body : List Command) : Prop :=
  ∃ moment frame outer, play.Passes operations moment ∧
    moment.frames = .start body :: frame :: outer

/-- The commands that set a variable to the value of a literal and then enter a body if a condition
holds. -/
def setThenAsk (name literal condition : String) (body : List Command) : List Command :=
  [.define name literal none, .ifBranch condition body]

def storeOf (name literal : String) : Store :=
  (∅ : Store).set name (.ofLiteral literal)

theorem get?_storeOf (name literal query : String) :
    (storeOf name literal).get? query = if query = name then some (.ofLiteral literal) else none :=
  Table.get?_insert ∅ name query (Value.ofLiteral literal)

section Course

variable {name literal condition : String} {body : List Command} {play : Play} {stepLimit : Nat}

theorem ofFrames_branch (name literal condition : String) (body : List Command) (store : Store)
    (input : Option Input) :
    Execution.ofFrames store input [(Frame.start (setThenAsk name literal condition body)).next] =
      Execution.branch (Frame.start (setThenAsk name literal condition body)).next [] store
        condition body :=
  rfl

inductive Outside (name literal condition : String) (body : List Command) (play : Play) : Prop where
  | before (hframes : play.frames = [.start (setThenAsk name literal condition body)])
      (hstore : play.store = ∅)
  | between (hframes : play.frames = [(Frame.start (setThenAsk name literal condition body)).next])
      (hstore : play.store = storeOf name literal)
  | behind (hframes : play.frames =
      [(Frame.start (setThenAsk name literal condition body)).next.next])
  | over (hframes : play.frames = [])

/-- If the condition fails, no beat of the story leads into the body. -/
theorem Outside.after (h : Outside name literal condition body play)
    (hscript : play.script = setThenAsk name literal condition body)
    (hfails : Condition.evaluate (storeOf name literal).get? condition = false) {beat : Beat}
    (hbeat : (beat = .leave ∨ ∃ input, beat = .execute input) ∨ beat = .restart) :
    Outside name literal condition body (play.after beat) := by
  obtain ⟨script, stepLimit, frames, store, log⟩ := play
  obtain rfl : script = setThenAsk name literal condition body := hscript
  rcases hbeat with (rfl | ⟨input, rfl⟩) | rfl
  · rcases h with ⟨rfl, rfl⟩ | ⟨rfl, rfl⟩ | ⟨rfl⟩ | ⟨rfl⟩
    · exact .before rfl rfl
    · exact .between rfl rfl
    · exact .over rfl
    · exact .over rfl
  · rcases h with ⟨rfl, rfl⟩ | ⟨rfl, rfl⟩ | ⟨rfl⟩ | ⟨rfl⟩
    · exact .between rfl rfl
    · refine .behind ?_
      rw [Play.after, ofFrames_branch, Execution.branch, if_neg (Bool.eq_false_iff.1 hfails)]
      rfl
    · exact .behind rfl
    · exact .over rfl
  · exact .before rfl rfl

theorem Outside.afterAll (h : Outside name literal condition body play)
    (hscript : play.script = setThenAsk name literal condition body)
    (hfails : Condition.evaluate (storeOf name literal).get? condition = false) {beats : List Beat}
    (hbeats : ∀ beat ∈ beats, (beat = .leave ∨ ∃ input, beat = .execute input) ∨
      beat = .restart) :
    Outside name literal condition body (play.afterAll beats) := by
  induction beats generalizing play with
  | nil => exact h
  | cons beat beats ih =>
    obtain ⟨hbeat, hlater⟩ := List.forall_mem_cons.1 hbeats
    exact ih (h.after hscript hfails hbeat) ((Play.script_after play beat).trans hscript) hlater

/-- A story that the host leaves to itself enters the body only if the condition holds. -/
theorem evaluate_of_enters {operations : List Operation}
    (hstore : ∀ operation ∈ operations, operation.leavesStore = true)
    (h : (Play.start (setThenAsk name literal condition body) stepLimit).Enters operations body) :
    Condition.evaluate (storeOf name literal).get? condition = true := by
  by_contra hholds
  obtain ⟨moment, frame, outer, ⟨earlier, later, hsplit, rfl, -⟩, hframes⟩ := h
  have hearlier : earlier <+: Play.beats _ operations := ⟨later, hsplit.symm⟩
  have hbeats : ∀ beat ∈ earlier, (beat = .leave ∨ ∃ input, beat = .execute input) ∨
      beat = .restart := by
    intro beat hbeat
    rcases Play.mem_beats (hearlier.subset hbeat) with hown | ⟨rfl, -⟩ | ⟨assignment, -, hmem⟩ |
      ⟨store, -, hmem⟩
    · exact .inl hown
    · exact .inr rfl
    · cases hstore _ hmem
    · cases hstore _ hmem
  have houtside : Outside name literal condition body
      ((Play.start (setThenAsk name literal condition body) stepLimit).afterAll earlier) :=
    Outside.afterAll (.before rfl rfl) rfl (Bool.eq_false_iff.2 hholds) hbeats
  rcases houtside with ⟨hone, -⟩ | ⟨hone, -⟩ | ⟨hone⟩ | ⟨hone⟩ <;> simp [hone] at hframes

theorem step_start (hframes : play.frames = [.start (setThenAsk name literal condition body)])
    (hstore : play.store = ∅) (input : Option Input) :
    (play.step input).frames = [(Frame.start (setThenAsk name literal condition body)).next] ∧
      (play.step input).store = storeOf name literal := by
  obtain ⟨script, stepLimit, frames, store, log⟩ := play
  obtain rfl : frames = [.start (setThenAsk name literal condition body)] := hframes
  obtain rfl : store = ∅ := hstore
  obtain ⟨fuel, hfuel⟩ : ∃ fuel, max stepLimit 1 = fuel + 1 := ⟨max stepLimit 1 - 1, by omega⟩
  simp only [Play.step, Play.settle, hfuel]
  exact ⟨rfl, rfl⟩

theorem exists_prefix_stepBeats (hframes : play.frames =
      [(Frame.start (setThenAsk name literal condition body)).next])
    (hstore : play.store = storeOf name literal)
    (hholds : Condition.evaluate (storeOf name literal).get? condition = true)
    (input : Option Input) :
    ∃ earlier frame outer, earlier <+: play.stepBeats input ∧
      (play.afterAll earlier).frames = .start body :: frame :: outer := by
  obtain ⟨script, stepLimit, frames, store, log⟩ := play
  obtain rfl : frames = [(Frame.start (setThenAsk name literal condition body)).next] := hframes
  obtain rfl : store = storeOf name literal := hstore
  obtain ⟨fuel, hfuel⟩ : ∃ fuel, max stepLimit 1 = fuel + 1 := ⟨max stepLimit 1 - 1, by omega⟩
  refine ⟨[.execute none],
    { (Frame.start (setThenAsk name literal condition body)).next with branchTaken := true }, [],
    ?_, ?_⟩
  · rw [Play.stepBeats]
    simp only [hfuel]
    exact ⟨_, rfl⟩
  · rw [Play.afterAll_cons, Play.afterAll_nil, Play.after, ofFrames_branch, Execution.branch,
      if_pos hholds]
    rfl

/-- A run that begins with two steps from the start of the script enters the body if the condition
holds. -/
theorem enters_of_steps (hframes : play.frames = [.start (setThenAsk name literal condition body)])
    (hstore : play.store = ∅)
    (hholds : Condition.evaluate (storeOf name literal).get? condition = true)
    {operations : List Operation} {a b : Option Input}
    (hbeats : play.stepBeats a ++ (play.step a).stepBeats b <+: play.beats operations) :
    play.Enters operations body := by
  obtain ⟨hframes', hstore'⟩ := step_start hframes hstore a
  obtain ⟨earlier, frame, outer, hearlier, hentered⟩ :=
    exists_prefix_stepBeats hframes' hstore' hholds b
  refine ⟨_, frame, outer, Play.Moment.passes ⟨play.stepBeats a ++ earlier, ?_, rfl⟩, ?_⟩
  · exact ((List.prefix_append_right_inj _).2 hearlier).trans hbeats
  · rw [Play.afterAll_append, Play.afterAll_stepBeats]
    exact hentered

theorem enters_step_step (hframes : play.frames = [.start (setThenAsk name literal condition body)])
    (hstore : play.store = ∅)
    (hholds : Condition.evaluate (storeOf name literal).get? condition = true)
    (a b : Option Input) (operations : List Operation) :
    play.Enters (.step a :: .step b :: operations) body := by
  refine enters_of_steps hframes hstore hholds (a := a) (b := b) ?_
  simp only [Play.beats, Play.operationBeats, Play.perform, ← List.append_assoc]
  exact List.prefix_append _ _

theorem enters_advance (hframes : play.frames = [.start (setThenAsk name literal condition body)])
    (hstore : play.store = ∅)
    (hholds : Condition.evaluate (storeOf name literal).get? condition = true)
    (hlimit : 2 ≤ play.stepLimit) (input : Option Input) (operations : List Operation) :
    play.Enters (.advance input :: operations) body := by
  obtain ⟨steps, hsteps⟩ := Nat.exists_eq_add_of_le' hlimit
  have hgoesOn : ¬((play.step input).isFinished || (play.step input).isWaiting) = true := by
    rw [Play.isFinished, Play.isWaiting, (step_start hframes hstore input).1]
    exact Bool.false_ne_true
  refine enters_of_steps hframes hstore hholds (a := input) (b := none) ?_
  rw [Play.beats, Play.operationBeats, hsteps, Play.advanceBeats, if_neg hgoesOn,
    Play.advanceBeats, ← List.append_assoc, List.append_assoc _ _ (Play.beats _ _)]
  exact List.prefix_append _ _

end Course

section Echo

open Script

variable {tabWidth : UInt64} {name s t body : List Char} {commands : List Command}

theorem ofLiteral_inQuotes (hs : IsQuotable s) :
    Value.ofLiteral (.ofList (inQuotes s)) = .text (.ofList s) := by
  rw [Value.ofLiteral, String.toList_ofList, (isTidy_inQuotes hs.oneLine).1]
  exact Value.ofTrimmed_of_isEnclosed ⟨'"', rfl, rfl⟩

/-- In the store with the variable alone, the condition asks whether the two texts are equal. -/
theorem evaluate_storeOf_iff (hname : IsVariable name) (hs : IsQuotable s) (ht : IsQuotable t)
    (hother : t ≠ name) (hconjunction : ¬conjunctionWord <:+: t)
    (hdisjunction : ¬disjunctionWord <:+: t) :
    Condition.evaluate (storeOf (.ofList name) (.ofList (inQuotes s))).get?
        (.ofList (equality name t)) = true ↔
      Test.Equals (.ofList s) (.ofList t) := by
  have hset : (storeOf (.ofList name) (.ofList (inQuotes s))).get? (.ofList name) =
      some (.text (.ofList s)) := by
    rw [get?_storeOf, if_pos rfl, ofLiteral_inQuotes hs]
  have hunset : (storeOf (.ofList name) (.ofList (inQuotes s))).get? (.ofList t) = none := by
    rw [get?_storeOf, if_neg (mt String.ofList_injective hother)]
  rw [evaluate_equality_iff hname ht.unquoted hconjunction hdisjunction, Test.resolve, hset,
    Test.resolve, hunset]
  rfl

/-- What a script assigns is what its condition reads. If the host leaves the store to the story,
the body is entered only if the two texts are equal; and if they are, two steps enter it, and so
does one advance that may take two. -/
theorem enters_echo_iff (hname : IsVariable name) (hs : IsQuotable s) (ht : IsQuotable t)
    (hother : t ≠ name) (hconjunction : ¬conjunctionWord <:+: t)
    (hdisjunction : ¬disjunctionWord <:+: t) (hbody : IsOneLine body)
    (hindent : 0 < measureIndent tabWidth body)
    (hcommands : read tabWidth (.ofList body) = .ok commands) :
    ∃ script, read tabWidth (echo name s t body) = .ok script ∧
      ∀ (stepLimit : Nat) (operations : List Operation),
        (∀ operation ∈ operations, operation.leavesStore = true) →
        ((Play.start script stepLimit).Enters operations commands →
          Test.Equals (.ofList s) (.ofList t)) ∧
        (∀ a b,
          (Play.start script stepLimit).Enters (.step a :: .step b :: operations) commands ↔
            Test.Equals (.ofList s) (.ofList t)) ∧
        (2 ≤ stepLimit → ∀ input,
          (Play.start script stepLimit).Enters (.advance input :: operations) commands ↔
            Test.Equals (.ofList s) (.ofList t)) := by
  have hholds := evaluate_storeOf_iff hname hs ht hother hconjunction hdisjunction
  refine ⟨_, read_echo hname hs ht hbody hindent hcommands, fun stepLimit operations hstore => ?_⟩
  refine ⟨fun henters => hholds.1 (evaluate_of_enters hstore henters),
    fun a b => ⟨fun henters => hholds.1 (evaluate_of_enters ?_ henters), fun hequals => ?_⟩,
    fun hlimit input => ⟨fun henters => hholds.1 (evaluate_of_enters ?_ henters),
      fun hequals => ?_⟩⟩
  · simpa [Operation.leavesStore] using hstore
  · exact enters_step_step rfl rfl (hholds.2 hequals) a b operations
  · simpa [Operation.leavesStore] using hstore
  · exact enters_advance rfl rfl (hholds.2 hequals) hlimit input operations

theorem enters_echo_iff_shout :
    echo "a.b".toList "x == 1: # Not".toList "X == 1: # NOT".toList "  jump c".toList =
        "$ a.b = \"x == 1: # Not\"\nif a.b == \"X == 1: # NOT\":\n  jump c" ∧
      ∃ script,
        read 4 "$ a.b = \"x == 1: # Not\"\nif a.b == \"X == 1: # NOT\":\n  jump c" = .ok script ∧
        (Play.start script 2).Enters [.advance none] [.jump "c"] := by
  have hname : IsVariable "a.b".toList := by decide +kernel
  have hs : IsQuotable "x == 1: # Not".toList := by decide +kernel
  have ht : IsQuotable "X == 1: # NOT".toList := by decide +kernel
  have hindent : 0 < measureIndent 4 "  jump c".toList := by decide +kernel
  have hlines : lines "  jump c".toList = ["  jump c".toList] := by decide +kernel
  have hopen : openLine 4 1 "  jump c".toList = .complete ⟨1, 2, .statement "jump c".toList⟩ := by
    decide +kernel
  have hcommands : read 4 (.ofList "  jump c".toList) = .ok [.jump "c"] := by
    rw [Script.read, readOutline_of_complete hlines hopen rfl]
    rfl
  have hequals : Test.Equals "x == 1: # Not" "X == 1: # NOT" :=
    Test.any_order?_iff_equals.1 (by decide +kernel)
  have htext : echo "a.b".toList "x == 1: # Not".toList "X == 1: # NOT".toList "  jump c".toList =
      "$ a.b = \"x == 1: # Not\"\nif a.b == \"X == 1: # NOT\":\n  jump c" := by
    decide +kernel
  obtain ⟨script, hscript, hplay⟩ := enters_echo_iff hname hs ht (by decide) (by decide +kernel)
    (by decide +kernel) ⟨by decide, by decide⟩ hindent hcommands
  exact ⟨htext, script, htext ▸ hscript, ((hplay 2 [] (by simp)).2.2 (by decide) none).2 hequals⟩

end Echo

end StoryScript
