import StoryScript.Proofs.Host.Basic
import StoryScript.Proofs.Waiting.Basic

/-! # Hosts make no difference to a play

A host that keeps a notebook reads the cues of a play: the store in the notebook is the one that
the cues make, and the entries are its readings of the cues. Every play on such a host is the play
without one, seen through the reading. So all hosts of this kind go through the same frames and the
same stores, and their entries are readings of the same cues.
-/

namespace StoryScript

def Store.after (store : Store) : Cue → Store
  | .assign assignment => store.assign assignment
  | _ => store

def Frame.speaker? : List Frame → Option String
  | [] => none
  | frame :: _ =>
    match frame.current? with
    | some (.dialogue speaker _) => speaker
    | _ => none

/-- Whether a cue names its speaker as the store does. -/
def Cue.Names (store : Store) : Cue → Prop
  | speech (some speaker) _ => speaker = store.speaker speaker.id
  | _ => True

namespace Execution

variable {store : Store} {input : Option Input} {frame : Frame} {outer : List Frame}

theorem act_cases (store : Store) (command : Command) :
    ((command.act store).2 = [] ∧ (command.act store).1 = store) ∨
      ∃ cue : Cue, (command.act store).2 = [cue] ∧ (command.act store).1 = store.after cue ∧
        cue.Names store := by
  unfold Command.act
  split
  case h_2 name value definition =>
    cases Assignment.ofDefinition? name value definition with
    | none => exact .inl ⟨rfl, rfl⟩
    | some assignment => exact .inr ⟨_, rfl, rfl, trivial⟩
  case h_8 => exact .inl ⟨rfl, rfl⟩
  all_goals exact .inr ⟨_, rfl, rfl, trivial⟩

/-- An execution gives at most one cue, which names its speaker by the store, and the store
changes as the cue says. -/
theorem Executes.outcome_cases {execution : Execution} {outcome : Outcome}
    (h : Executes store input frame outer execution) (he : execution = .stop outcome) :
    (outcome.cues = [] ∧ outcome.store = store) ∨
      ∃ cue : Cue, outcome.cues = [cue] ∧ outcome.store = store.after cue ∧ cue.Names store := by
  cases h with
  | @plain command =>
    cases he
    exact act_cases store command
  | @shown speaker =>
    cases he
    refine .inr ⟨_, rfl, rfl, ?_⟩
    cases speaker with
    | none => trivial
    | some id => rfl
  | offered => cases he; exact .inr ⟨_, rfl, rfl, trivial⟩
  | label => cases he
  | chosen => cases he
  | opened => cases he
  | jumped => cases he
  | _ => cases he; exact .inl ⟨rfl, rfl⟩

end Execution

namespace Host

variable {α : Type} {host : Host (Notebook α)} {read : Cue → List α}

/-- A host with a notebook that reads cues. -/
structure Reads (host : Host (Notebook α)) (read : Cue → List α) : Prop where
  store : host.store = Notebook.store
  withStore : host.withStore = Notebook.withStore
  tell : ∀ book cue, cue.Names book.store →
    host.tell book cue = ⟨book.store.after cue, book.entries ++ read cue⟩

theorem reads_recorder : recorder.Reads fun cue => [.ofCue cue] where
  store := rfl
  withStore := rfl
  tell book cue hnames := by
    cases cue with
    | speech speaker text =>
      cases speaker with
      | none => rfl
      | some speaker =>
        have hname : speaker.name = book.store.displayName speaker.id :=
          congrArg Speaker.name hnames
        simp only [Host.tell, recorder, Notebook.write, ← hname]
        rfl
    | assign assignment => cases assignment <;> rfl
    | _ => rfl

theorem reads_plain : plain.Reads fun cue => (HostCall.ofCue? cue).toList where
  store := rfl
  withStore := rfl
  tell book cue _ := by
    cases cue with
    | speech speaker text => cases speaker <;> rfl
    | assign assignment =>
      cases assignment <;>
        simp [Host.tell, plain, Notebook.withStore, Store.after, Store.assign, HostCall.ofCue?]
    | _ => rfl

/-- A host with a notebook reads the cues of a chain of commands. -/
theorem Reads.chain (h : host.Reads read) (fuel : Nat) (input : Option Input)
    (frames : List Frame) (book : Notebook α) :
    host.chain fuel input frames book =
      ((Execution.chain book.store fuel input frames).frames,
        ⟨(Execution.chain book.store fuel input frames).store,
          book.entries ++ (Execution.chain book.store fuel input frames).cues.flatMap read⟩) := by
  induction fuel generalizing input frames with
  | zero => simp [Host.chain, Execution.chain]
  | succ fuel ih =>
    rw [Host.chain, Execution.chain, h.store]
    cases frames with
    | nil => simp [Execution.ofFrames, Execution.rest]
    | cons frame outer =>
      have hexec : Execution.Executes book.store input frame outer
          (Execution.ofFrames book.store input (frame :: outer)) := Execution.executes_ofFrames
      cases he : Execution.ofFrames book.store input (frame :: outer) with
      | descend found => exact ih none found
      | stop outcome =>
        obtain ⟨hcues, hstore⟩ | ⟨cue, hcues, hstore, hnames⟩ := hexec.outcome_cases he
        · simp [hcues, hstore]
        · simp [hcues, hstore, h.tell book cue hnames]

end Host

namespace Play

variable {α : Type} {host : Host (Notebook α)} {read : Cue → List α}

/-- The play on a host that has read its cues. -/
def onHost (read : Cue → List α) (play : Play) : HostedPlay (Notebook α) :=
  ⟨play.script, play.stepLimit, play.frames, ⟨play.store, play.log.reverse.flatMap read⟩⟩

variable {play : Play} {input : Option Input}

theorem step_onHost (h : host.Reads read) :
    (play.onHost read).step host input = (play.step input).onHost read := by
  simp only [HostedPlay.step, onHost, h.chain, step, settle, List.reverse_append,
    List.reverse_reverse, List.flatMap_append]
  rfl

theorem seen_onHost (h : host.Reads read) :
    (play.onHost read).seen host = { play with log := [] } := by
  rw [HostedPlay.seen, h.store]
  rfl

theorem advanceWithin_onHost (h : host.Reads read) (steps : Nat) :
    HostedPlay.advanceWithin host steps (play.onHost read) input =
      ((play.advanceWithin steps input).1.onHost read, (play.advanceWithin steps input).2) := by
  induction steps generalizing play input with
  | zero => rfl
  | succ steps ih =>
    have hrests (next : Play) : ({ next with log := [] } : Play).isFinished = next.isFinished ∧
        ({ next with log := [] } : Play).isWaiting = next.isWaiting ∧
        ({ next with log := [] } : Play).status = next.status := ⟨rfl, rfl, rfl⟩
    simp only [HostedPlay.advanceWithin, advanceWithin, step_onHost h, seen_onHost h, hrests]
    split
    · rfl
    · exact ih

theorem perform_onHost (h : host.Reads read) (operation : Operation) :
    (play.onHost read).perform host operation =
      ((play.perform operation).onHost read, play.answer operation) := by
  cases operation with
  | step input =>
    simp only [HostedPlay.perform, step_onHost h, seen_onHost h]
    rfl
  | advance input =>
    simp only [HostedPlay.perform]
    rw [show (play.onHost read).stepLimit = play.stepLimit from rfl, advanceWithin_onHost h]
    rfl
  | restart =>
    simp only [HostedPlay.perform, h.withStore]
    rfl
  | assign assignment =>
    have htold := h.tell ⟨play.store, play.log.reverse.flatMap read⟩ (.assign assignment) trivial
    simp only [HostedPlay.perform, onHost, htold, perform, assign, List.reverse_cons,
      List.flatMap_append, List.flatMap_singleton]
    rfl
  | replaceStore store =>
    simp only [HostedPlay.perform, h.withStore]
    rfl

theorem run_onHost (h : host.Reads read) (play : Play) (operations : List Operation) :
    (play.onHost read).run host operations = (play.run operations).onHost read := by
  induction operations generalizing play with
  | nil => rfl
  | cons operation operations ih =>
    rw [HostedPlay.run, List.foldl_cons, perform_onHost h, ← HostedPlay.run, ih, run_cons]

theorem recordWithin_onHost (h : host.Reads read) (turns : Nat) (choices : List Nat) :
    (play.onHost read).recordWithin host turns choices input =
      (play.recordWithin turns choices input).map fun (final, ending) =>
        (final.onHost read, ending) := by
  induction turns generalizing play choices input with
  | zero => rfl
  | succ turns ih =>
    have hlimit : (play.onHost read).stepLimit = play.stepLimit := rfl
    have hseen (next : Play) : ((next.onHost read).seen host).awaitsChoice = next.awaitsChoice ∧
        ((next.onHost read).seen host).isWaiting = next.isWaiting := by
      rw [seen_onHost h]
      exact ⟨rfl, rfl⟩
    rw [HostedPlay.recordWithin, Play.recordWithin, hlimit, advanceWithin_onHost h, ← advance]
    generalize play.advance input = advanced
    obtain ⟨next, status⟩ := advanced
    cases status with
    | done => rfl
    | continues =>
      simp only [hseen]
      split
      · cases choices with
        | nil => rfl
        | cons index choices => exact ih choices
      · split
        · exact ih choices
        · rfl

/-- Cues are added to the log of a play. A line among them is that of the speaker with whose
command the play is left. -/
structure Adds (play next : Play) (cues : List Cue) : Prop where
  log : next.log = cues.reverse ++ play.log
  speaker : ∀ speaker text, Cue.speech (some speaker) text ∈ cues →
    Frame.speaker? next.frames = some speaker.id

theorem exists_adds_step (hn : play.Nested) (input : Option Input) :
    ∃ cues, play.Adds (play.step input) cues ∧
      ∀ speaker text, Cue.speech (some speaker) text ∈ cues →
        (play.step input).isWaiting = true := by
  have hstep := proceeds_step hn input
  generalize play.step input = next at hstep ⊢
  cases hstep with
  | unanswered => exact ⟨[], ⟨rfl, by simp⟩, by simp⟩
  | @taken frames store cues _ hends =>
    cases hends with
    | @asking _ _ cue hasks =>
      refine ⟨[cue], ⟨rfl, fun speaker text hmem => ?_⟩, fun _ _ _ => hasks.any_waiting⟩
      obtain rfl := List.mem_singleton.1 hmem
      cases frames with
      | nil => exact hasks.elim
      | cons frame outer =>
        obtain ⟨-, -, command, hcurrent, hquestion⟩ := hasks
        cases command <;> simp only [Command.question?, reduceCtorEq, Option.some.injEq,
          Cue.speech.injEq] at hquestion
        obtain ⟨id, rfl, rfl⟩ := Option.map_eq_some_iff.1 hquestion.1
        simp only [Frame.speaker?, hcurrent, Store.speaker]
    | quiet _ _ hquiet =>
      have hsilent (speaker : Speaker) (text : String) : Cue.speech (some speaker) text ∉ cues :=
        fun hmem => by simpa [Cue.asks] using hquiet _ hmem
      exact ⟨cues, ⟨rfl, fun speaker text hmem => absurd hmem (hsilent speaker text)⟩,
        fun speaker text hmem => absurd hmem (hsilent speaker text)⟩

theorem exists_adds_advanceWithin (hn : play.Nested) (steps : Nat) (input : Option Input) :
    ∃ cues, play.Adds (play.advanceWithin steps input).1 cues := by
  induction steps generalizing play input with
  | zero => exact ⟨[], rfl, by simp⟩
  | succ steps ih =>
    obtain ⟨cues, hadds, hwaits⟩ := exists_adds_step hn input
    simp only [advanceWithin]
    split
    · exact ⟨cues, hadds⟩
    · rename_i hgoes
      obtain ⟨more, hmore⟩ := ih (hn.step input) none
      refine ⟨cues ++ more, ?_, fun speaker text hmem => ?_⟩
      · rw [hmore.log, hadds.log, List.reverse_append, List.append_assoc]
      · obtain hmem | hmem := List.mem_append.1 hmem
        · simp [hwaits speaker text hmem] at hgoes
        · exact hmore.speaker speaker text hmem

theorem exists_adds_perform (hn : play.Nested) (operation : Operation) :
    ∃ cues, play.Adds (play.perform operation) cues := by
  cases operation with
  | step input =>
    obtain ⟨cues, hadds, -⟩ := exists_adds_step hn input
    exact ⟨cues, hadds⟩
  | advance input => exact exists_adds_advanceWithin hn play.stepLimit input
  | restart => exact ⟨[], rfl, by simp⟩
  | assign assignment => exact ⟨[.assign assignment], rfl, by simp⟩
  | replaceStore store => exact ⟨[], rfl, by simp⟩

theorem Adds.entries {next : Play} {cues : List Cue} (h : play.Adds next cues) :
    (next.onHost read).state.entries = (play.onHost read).state.entries ++ cues.flatMap read := by
  simp only [onHost, h.log, List.reverse_append, List.reverse_reverse, List.flatMap_append]

theorem entries_onHost_recorder (play : Play) :
    (play.onHost fun cue => [Event.ofCue cue]).state.entries = play.events := by
  rw [events, List.map_eq_flatMap]
  rfl

/-- A recording is what the recorder has written down at the end of the same loop. -/
theorem record?_eq_recorder (turns : Nat) (script : List Command) (choices : List Nat)
    (stepLimit : Nat) :
    record? turns script choices stepLimit =
      ((HostedPlay.start script stepLimit .empty).recordWithin Host.recorder turns choices none).map
        HostedPlay.written := by
  have hrecord := @recordWithin_onHost _ _ _ (start script stepLimit) none Host.reads_recorder
    turns choices
  rw [show HostedPlay.start script stepLimit .empty = (start script stepLimit).onHost _ from rfl,
    hrecord, record?, Option.map_map]
  exact congrArg (Option.map · _)
    (funext fun (final, ending) => congrArg (·, ending) (entries_onHost_recorder final).symm)

end Play

/-- The call of a plain host for an event, if the line at which the play stands is spoken by the
speaker given. -/
def HostCall.ofEvent? (speaker? : Option String) : Event → Option HostCall
  | .dialogue _ text => speaker?.map (showDialogue · text)
  | .narration text => some (showNarration text)
  | .scene image transition => some (showImage image none transition)
  | .showImage image position transition => some (showImage image position transition)
  | .hideImage image transition => some (hideImage image transition)
  | .playMusic file fadeIn => some (playMusic file fadeIn)
  | .stopMusic fadeOut => some (stopMusic fadeOut)
  | .pause seconds => some (pause seconds)
  | .choices prompts => some (showChoices prompts)
  | .defineCharacter _ _ => none
  | .setVariable _ _ => none

theorem HostCall.ofEvent?_ofCue {speaker? : Option String} {cue : Cue}
    (h : ∀ speaker text, cue = .speech (some speaker) text → speaker? = some speaker.id) :
    ofEvent? speaker? (.ofCue cue) = ofCue? cue := by
  cases cue with
  | speech speaker text =>
    cases speaker with
    | none => rfl
    | some speaker => rw [h speaker text rfl]; rfl
  | assign assignment => cases assignment <;> rfl
  | _ => rfl

theorem Play.Adds.calls {play next : Play} {cues : List Cue} (h : play.Adds next cues) :
    cues.flatMap (fun cue => (HostCall.ofCue? cue).toList) =
      (cues.flatMap fun cue => [Event.ofCue cue]).filterMap
        (HostCall.ofEvent? (Frame.speaker? next.frames)) := by
  rw [← List.filterMap_eq_flatMap_toList, ← List.map_eq_flatMap, List.filterMap_map]
  refine List.filterMap_congr fun cue hmem => (HostCall.ofEvent?_ofCue ?_).symm
  rintro speaker text rfl
  exact h.speaker speaker text hmem

/-- A play does not depend on its presentation. On a host that writes down events and on one
that has no more methods than it must have, it goes through the same frames and the same stores,
so it waits and ends at the same times, and every operation answers the same. The calls that the
one host writes down in an operation are the events of the other one without the changes of the
store, scenes being images without a position, and a line being that of the speaker whose id
stands in the script at the place where the play is then. The host that writes down events has
the frames, the store and the transcript of the play without a host. -/
theorem plain_agrees_with_recorder (script : List Command) (stepLimit : Nat)
    (operations : List Operation) :
    let recorded := (HostedPlay.start script stepLimit .empty).run Host.recorder operations
    let called := (HostedPlay.start script stepLimit .empty).run Host.plain operations
    let played := (Play.start script stepLimit).run operations
    recorded.seen Host.recorder = called.seen Host.plain ∧
      recorded.seen Host.recorder = { played with log := [] } ∧
      recorded.state.entries = played.events ∧
      ∀ operation,
        (recorded.perform Host.recorder operation).2 = (called.perform Host.plain operation).2 ∧
        ∃ events,
          (recorded.perform Host.recorder operation).1.state.entries =
            recorded.state.entries ++ events ∧
          (called.perform Host.plain operation).1.state.entries =
            called.state.entries ++ events.filterMap (HostCall.ofEvent?
              (Frame.speaker? (recorded.perform Host.recorder operation).1.frames)) := by
  have hn := (Play.nested_start script stepLimit).run operations
  intro recorded called played
  have hrecorded : recorded = _ :=
    Play.run_onHost Host.reads_recorder (.start script stepLimit) operations
  have hcalled : called = _ :=
    Play.run_onHost Host.reads_plain (.start script stepLimit) operations
  rw [hrecorded, hcalled, Play.seen_onHost Host.reads_recorder, Play.seen_onHost Host.reads_plain]
  refine ⟨rfl, rfl, Play.entries_onHost_recorder played, fun operation => ?_⟩
  rw [Play.perform_onHost Host.reads_recorder, Play.perform_onHost Host.reads_plain]
  obtain ⟨cues, hadds⟩ := Play.exists_adds_perform hn operation
  exact ⟨rfl, _, hadds.entries, hadds.entries.trans (by rw [hadds.calls]; rfl)⟩

end StoryScript
