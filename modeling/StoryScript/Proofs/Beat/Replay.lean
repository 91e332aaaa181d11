import StoryScript.Proofs.Beat.Scope
import StoryScript.Proofs.Waiting.Basic

/-! # What a transcript says of the store

Every change of the store leaves an event, and no event is left without one, so the store of a
play is what its transcript gives when it is read from the beginning. The name under which a line
is shown is therefore the last one that the transcript gives to its speaker.
-/

namespace StoryScript

namespace Store

/-- The store after an event has been read. -/
def note (store : Store) : Event → Store
  | .setVariable name value => store.set name value
  | .defineCharacter id character => store.define id character
  | _ => store

/-- The store that a transcript gives, read from the beginning. -/
def replay (events : List Event) : Store :=
  events.foldl note ∅

end Store

namespace Event

def nameOf? (id : String) : Event → Option String
  | defineCharacter other character => if id = other then some character.name else none
  | _ => none

def lastName? (events : List Event) (id : String) : Option String :=
  events.reverse.findSome? (nameOf? id)

end Event

/-- Whether an operation leaves an event for every change of the store. -/
def Operation.isRecorded : Operation → Bool
  | restart => false
  | replaceStore _ => false
  | _ => true

def Beat.isRecorded : Beat → Bool
  | restart => false
  | replaceStore _ => false
  | _ => true

variable {store : Store} {input : Option Input} {frame : Frame} {outer : List Frame}

theorem Store.note_ofCue (store : Store) (cue : Cue) :
    store.note (.ofCue cue) = match cue with
      | .assign assignment => store.assign assignment
      | _ => store := by
  cases cue with
  | speech speaker text => cases speaker <;> rfl
  | assign assignment => cases assignment <;> rfl
  | _ => rfl

theorem Store.displayName_replay (events : List Event) (id : String) :
    (replay events).displayName id = (Event.lastName? events id).getD id := by
  induction events using List.reverseRecOn with
  | nil => rfl
  | append_singleton events event ih =>
    rw [Event.lastName?, List.reverse_append, List.reverse_singleton, List.singleton_append,
      List.findSome?_cons, ← Event.lastName?, replay, List.foldl_append, ← replay]
    cases event with
    | defineCharacter other character =>
      simp only [List.foldl_cons, List.foldl_nil, note, Event.nameOf?, displayName, character?,
        define, Table.get?_insert]
      by_cases hid : id = other
      · simp only [hid, ite_true, Option.getD_some]
      · simp only [hid, ite_false]
        exact ih
    | _ => exact ih

namespace Execution

theorem act_eq_note (store : Store) (command : Command) :
    (command.act store).1 = ((command.act store).2.map .ofCue).foldl Store.note store := by
  unfold Command.act
  split <;> try rfl
  split
  · simp [Store.note_ofCue]
  · rfl

theorem Executes.store_eq {execution : Execution} {outcome : Outcome}
    (h : Executes store input frame outer execution) (he : execution = .stop outcome) :
    outcome.store = (outcome.cues.map .ofCue).foldl Store.note store := by
  cases h with
  | plain =>
    cases he
    exact act_eq_note store _
  | shown =>
    cases he
    simp [Store.note_ofCue]
  | label => cases he
  | chosen => cases he
  | opened => cases he
  | jumped => cases he
  | _ => cases he; rfl

theorem Executes.length_cues_le {execution : Execution} {outcome : Outcome}
    (h : Executes store input frame outer execution) (he : execution = .stop outcome) :
    outcome.cues.length ≤ 1 := by
  cases h with
  | plain =>
    cases he
    exact quiet_act.1
  | shown => cases he; exact Nat.le_refl 1
  | offered => cases he; exact Nat.le_refl 1
  | label => cases he
  | chosen => cases he
  | opened => cases he
  | jumped => cases he
  | _ => cases he; exact Nat.zero_le 1

end Execution

namespace Play

variable {play : Play}

/-- What one beat adds to the log: nothing or one cue, and the store changes as its event says
unless the host changes it without one. -/
theorem log_after (play : Play) (beat : Beat) :
    ∃ cues : List Cue, (play.after beat).log = cues.reverse ++ play.log ∧ cues.length ≤ 1 ∧
      (beat.isRecorded = true →
        (play.after beat).store = (cues.map .ofCue).foldl Store.note play.store) := by
  cases beat with
  | execute input =>
    rw [after]
    cases hf : play.frames with
    | nil => exact ⟨[], rfl, by simp, fun _ => rfl⟩
    | cons frame outer =>
      have hexec : Execution.Executes play.store input frame outer
          (Execution.ofFrames play.store input (frame :: outer)) := Execution.executes_ofFrames
      cases he : Execution.ofFrames play.store input (frame :: outer) with
      | descend found => exact ⟨[], rfl, by simp, fun _ => rfl⟩
      | stop outcome =>
        exact ⟨outcome.cues, rfl, hexec.length_cues_le he, fun _ => hexec.store_eq he⟩
  | leave => exact ⟨[], rfl, by simp, fun _ => rfl⟩
  | restart => exact ⟨[], rfl, by simp, by simp [Beat.isRecorded]⟩
  | assign assignment =>
    exact ⟨[.assign assignment], rfl, by simp, fun _ =>
      (Store.note_ofCue play.store (.assign assignment)).symm⟩
  | replaceStore store => exact ⟨[], rfl, by simp, by simp [Beat.isRecorded]⟩

theorem replay_after {beat : Beat} (h : Store.replay play.events = play.store)
    (hr : beat.isRecorded = true) :
    Store.replay (play.after beat).events = (play.after beat).store := by
  obtain ⟨cues, hlog, -, hstore⟩ := log_after play beat
  have hevents : (play.after beat).events = play.events ++ cues.map .ofCue := by
    rw [events, hlog, events, List.reverse_append, List.reverse_reverse, List.map_append]
  rw [hevents, Store.replay, List.foldl_append, ← Store.replay, h, hstore hr]

theorem replay_afterAll {beats : List Beat} (h : Store.replay play.events = play.store)
    (hr : ∀ beat ∈ beats, beat.isRecorded = true) :
    Store.replay (play.afterAll beats).events = (play.afterAll beats).store := by
  induction beats generalizing play with
  | nil => exact h
  | cons beat beats ih =>
    rw [List.forall_mem_cons] at hr
    exact ih (replay_after h hr.1) hr.2

theorem log_suffix_afterAll (play : Play) (beats : List Beat) :
    play.log <:+ (play.afterAll beats).log := by
  refine afterAll_induction (P := fun other => play.log <:+ other.log) (fun other beat h => ?_)
    (List.suffix_refl _) beats
  obtain ⟨cues, hlog, -⟩ := log_after other beat
  rw [hlog]
  exact h.trans (List.suffix_append _ _)

theorem exists_beat_of_log {beats : List Beat} {cue : Cue} {later earlier : List Cue}
    (h : (play.afterAll beats).log = later ++ cue :: earlier)
    (hlength : play.log.length ≤ earlier.length) :
    ∃ before beat rest, beats = before ++ beat :: rest ∧
      (play.afterAll before).log = earlier ∧
      ((play.afterAll before).after beat).log = cue :: earlier := by
  induction beats generalizing play with
  | nil =>
    have hsame := congrArg List.length h
    simp only [afterAll_nil, List.length_append, List.length_cons] at hsame
    omega
  | cons beat beats ih =>
    by_cases hle : (play.after beat).log.length ≤ earlier.length
    · obtain ⟨before, other, rest, hbeats, hlog⟩ := ih h hle
      exact ⟨beat :: before, other, rest, by rw [hbeats]; rfl, hlog⟩
    · obtain ⟨cues, hlog, hone, -⟩ := log_after play beat
      have hsuffix : (play.after beat).log = cue :: earlier := by
        obtain ⟨more, hmore⟩ := log_suffix_afterAll (play.after beat) beats
        rw [afterAll_cons, ← hmore] at h
        have hlengths := congrArg List.length hlog
        simp only [List.length_append, List.length_reverse] at hlengths
        exact (List.append_inj' h (by simp only [List.length_cons]; omega)).2
      refine ⟨[], beat, beats, rfl, ?_, hsuffix⟩
      rw [hsuffix] at hlog
      have hlengths := congrArg List.length hlog
      simp only [List.length_append, List.length_reverse, List.length_cons] at hlengths
      have hcues : [cue] ++ earlier = cues.reverse ++ play.log := hlog
      exact (List.append_inj' hcues (by omega)).2.symm

/-- A line of a speaker is shown by a beat that executes it, under the name that the store has for
the speaker. -/
theorem exists_line_of_speech {beat : Beat} {speaker : Speaker} {text : String}
    (h : (play.after beat).log = .speech (some speaker) text :: play.log) :
    ∃ input frame outer, beat = .execute input ∧ play.frames = frame :: outer ∧
      frame.current? = some (.dialogue (some speaker.id) text) ∧
      speaker.name = play.store.displayName speaker.id := by
  have hne {cue : Cue} : cue :: play.log ≠ play.log := List.cons_ne_self _ _
  cases beat with
  | execute input =>
    cases hf : play.frames with
    | nil =>
      rw [after, hf] at h
      exact absurd h.symm hne
    | cons frame outer =>
      have hexec : Execution.Executes play.store input frame outer
          (Execution.ofFrames play.store input (frame :: outer)) := Execution.executes_ofFrames
      rw [after, hf] at h
      generalize Execution.ofFrames play.store input (frame :: outer) = execution at h hexec
      cases hexec with
      | plain =>
        have hcues := List.append_cancel_right (h.trans (List.singleton_append).symm)
        have hquiet := Execution.quiet_act.2 (.speech (some speaker) text)
          (List.mem_reverse.1 (by rw [hcues]; exact List.mem_singleton_self _))
        simp [Cue.asks] at hquiet
      | @shown other _ hc =>
        obtain ⟨hspeaker, rfl⟩ := Cue.speech.inj (List.cons.inj h).1
        obtain ⟨id, rfl, rfl⟩ := Option.map_eq_some_iff.1 hspeaker
        exact ⟨input, frame, outer, rfl, rfl, hc, rfl⟩
      | offered => cases (List.cons.inj h).1
      | _ => exact absurd h.symm hne
  | assign assignment => cases (List.cons.inj h).1
  | _ => exact absurd h.symm hne

/-- Where a transcript has a line of a speaker, the log has its cue. -/
theorem exists_speech_of_events {earlier later : List Event} {name text : String}
    (h : play.events = earlier ++ .dialogue name text :: later) :
    ∃ before speaker after, play.log = after ++ .speech (some speaker) text :: before ∧
      before.reverse.map .ofCue = earlier ∧ speaker.name = name := by
  obtain ⟨before, rest, hlog, hearlier, hrest⟩ := List.map_eq_append_iff.1 h
  obtain ⟨cue, after, rfl, hcue, -⟩ := List.map_eq_cons_iff.1 hrest
  have hreverse := congrArg List.reverse hlog
  rw [List.reverse_reverse, List.reverse_append, List.reverse_cons, List.append_assoc,
    List.singleton_append] at hreverse
  cases cue with
  | speech speaker line =>
    cases speaker with
    | none => cases hcue
    | some speaker =>
      cases hcue
      exact ⟨before.reverse, speaker, after.reverse, hreverse,
        by rw [List.reverse_reverse, hearlier], rfl⟩
  | assign assignment => cases assignment <;> cases hcue
  | _ => cases hcue

theorem isRecorded_of_mem_beats {operations : List Operation} {beat : Beat}
    (hr : ∀ operation ∈ operations, operation.isRecorded = true)
    (h : beat ∈ play.beats operations) : beat.isRecorded = true := by
  rcases mem_beats h with (rfl | ⟨input, rfl⟩) | ⟨rfl, hmem⟩ | ⟨assignment, rfl, -⟩ |
    ⟨store, rfl, hmem⟩
  · rfl
  · rfl
  · cases hr _ hmem
  · rfl
  · cases hr _ hmem

end Play

/-- In a run in which the host changes the store by assignments alone, the transcript gives the
store, and every line of a speaker is shown under the last name that the transcript has given to
the speaker before, or under the speaker's id as it stands in the script if there is none. -/
theorem replay_events_of_run (script : List Command) (stepLimit : Nat)
    {operations : List Operation} (hr : ∀ operation ∈ operations, operation.isRecorded = true) :
    Store.replay ((Play.start script stepLimit).run operations).events =
        ((Play.start script stepLimit).run operations).store ∧
      ∀ earlier name text later,
        ((Play.start script stepLimit).run operations).events =
          earlier ++ .dialogue name text :: later →
        ∃ before input rest frame outer address id,
          (Play.start script stepLimit).beats operations = before ++ .execute input :: rest ∧
          ((Play.start script stepLimit).afterAll before).events = earlier ∧
          ((Play.start script stepLimit).afterAll before).frames = frame :: outer ∧
          StandsAt script address frame outer ∧
          address.command? script = some (.dialogue (some id) text) ∧
          name = (Event.lastName? earlier id).getD id := by
  have hbeats := Play.afterAll_beats (Play.start script stepLimit) operations
  have hrecorded {beat : Beat} (h : beat ∈ (Play.start script stepLimit).beats operations) :
      beat.isRecorded = true := Play.isRecorded_of_mem_beats hr h
  refine ⟨?_, fun earlier name text later hevents => ?_⟩
  · rw [← hbeats]
    exact Play.replay_afterAll rfl fun beat hb => hrecorded hb
  · rw [← hbeats] at hevents
    obtain ⟨given, speaker, more, hlog, rfl, rfl⟩ := Play.exists_speech_of_events hevents
    obtain ⟨before, beat, rest, hsplit, hgiven, hline⟩ :=
      Play.exists_beat_of_log hlog (Nat.zero_le _)
    rw [← hgiven] at hline
    obtain ⟨input, frame, outer, rfl, hframes, hcurrent, hname⟩ :=
      Play.exists_line_of_speech hline
    have hstack : Stack script ((Play.start script stepLimit).afterAll before).frames :=
      Play.Moment.stack ⟨before, ⟨_, hsplit.symm⟩, rfl⟩
    rw [hframes] at hstack
    obtain ⟨address, hstands⟩ := hstack.exists_standsAt
    obtain _ | ⟨hsuffix, -, -⟩ := hstack
    have hreplay : Store.replay ((Play.start script stepLimit).afterAll before).events =
        ((Play.start script stepLimit).afterAll before).store :=
      Play.replay_afterAll rfl fun beat hb =>
        hrecorded (by rw [hsplit]; exact List.mem_append_left _ hb)
    refine ⟨before, input, rest, frame, outer, address, speaker.id, hsplit, ?_, hframes, hstands,
      ?_, ?_⟩
    · rw [Play.events, hgiven]
    · rw [← hstands.current?_eq hsuffix, hcurrent]
    · rw [hname, ← hreplay, Store.displayName_replay, Play.events, hgiven]

theorem Address.mem_of_command? {script : List Command} {address : Address} {command : Command}
    (hflat : ∀ other ∈ script, other.bodies = []) (h : address.command? script = some command) :
    command ∈ script := by
  have hlist (way : List (Nat × Nat)) (commands : List Command)
      (h : listAt? script way = some commands) : commands = script := by
    induction way generalizing commands with
    | nil => exact (Option.some.inj h).symm
    | cons step way ih =>
      obtain ⟨around, haround, hbody⟩ := Option.bind_eq_some_iff.1 h
      obtain ⟨outer, houter, hplace⟩ := Option.bind_eq_some_iff.1 haround
      cases ih outer houter
      rw [hflat around (List.mem_of_getElem? hplace)] at hbody
      cases hbody
  obtain ⟨commands, hcommands, hplace⟩ := Option.bind_eq_some_iff.1 h
  cases hlist address.way commands hcommands
  exact List.mem_of_getElem? hplace

def meeting : List Command :=
  [.dialogue (some "e") "Hello.",
    .define "mood" "\"good\"" none,
    .define "e" "Character(\"Eileen\")" (some ⟨"Character", [⟨none, .text "Eileen"⟩]⟩),
    .dialogue (some "e") "I am Eileen.",
    .dialogue (some "e") "Call me Ina."]

def meetingOperations : List Operation :=
  [.advance none, .advance (some .proceed), .assign (.setVariable "mood" (.bool true)),
    .assign (.defineCharacter "e" ⟨"Ina", "#ffffff", ∅⟩), .advance (some .proceed)]

def meetingEvents : List Event :=
  [.dialogue "e" "Hello.", .setVariable "mood" (.text "good"),
    .defineCharacter "e" ⟨"Eileen", "#ffffff", ∅⟩, .dialogue "Eileen" "I am Eileen.",
    .setVariable "mood" (.bool true), .defineCharacter "e" ⟨"Ina", "#ffffff", ∅⟩,
    .dialogue "Ina" "Call me Ina."]

theorem replay_events_of_run_meeting :
    (∀ operation ∈ meetingOperations, operation.isRecorded = true) ∧
      ((Play.start meeting 9).run meetingOperations).events = meetingEvents ∧
      Store.replay meetingEvents = ((Play.start meeting 9).run meetingOperations).store ∧
      ((Play.start meeting 9).run meetingOperations).store.get? "mood" = some (.bool true) ∧
      "Eileen" = (Event.lastName? (meetingEvents.take 3) "e").getD "e" ∧
      "Ina" = (Event.lastName? (meetingEvents.take 6) "e").getD "e" := by
  have hr : ∀ operation ∈ meetingOperations, operation.isRecorded = true := by
    simp [meetingOperations, Operation.isRecorded]
  have hevents : ((Play.start meeting 9).run meetingOperations).events = meetingEvents := by
    decide +kernel
  have hflat : ∀ command ∈ meeting, command.bodies = [] := by simp [meeting, Command.bodies]
  obtain ⟨hstore, hnames⟩ := replay_events_of_run meeting 9 hr
  rw [hevents] at hstore hnames
  have hspeaker : ∀ command ∈ meeting, ∀ id text, command = .dialogue (some id) text →
      id = "e" := by
    simp [meeting]
  have hname (earlier later : List Event) (name text : String)
      (hsplit : meetingEvents = earlier ++ .dialogue name text :: later) :
      name = (Event.lastName? earlier "e").getD "e" := by
    obtain ⟨_, _, _, _, _, address, id, -, -, -, -, hline, hname⟩ :=
      hnames earlier name text later hsplit
    rwa [hspeaker _ (Address.mem_of_command? hflat hline) id text rfl] at hname
  have hmood : (Store.replay meetingEvents).get? "mood" = some (.bool true) := by decide +kernel
  exact ⟨hr, hevents, hstore, hstore ▸ hmood,
    hname (meetingEvents.take 3) (meetingEvents.drop 4) "Eileen" "I am Eileen." rfl,
    hname (meetingEvents.take 6) (meetingEvents.drop 7) "Ina" "Call me Ina." rfl⟩

end StoryScript
