import StoryScript.CommandLine.Basic
import StoryScript.Proofs.Host.Agreement

/-! # The console shows the transcript

With choices given beforehand and nothing to read, a session at the console and a recording go in
step: they advance the same play with the same inputs, and at every moment the console has shown
the events recorded so far. Both come to an end together and for the same reason. The same is shown
by a console that is the host of the play, keeps a store of its own and looks names up in it.
-/

namespace StoryScript

namespace Console

def renderEvent : Event → String
  | .dialogue speaker text => speaker ++ ": " ++ text ++ "\n"
  | .narration text => text ++ "\n"
  | .scene image transition => direction ("scene " ++ image ++ clause "with" transition)
  | .showImage image position transition =>
    direction ("show " ++ image ++ clause "at" position ++ clause "with" transition)
  | .hideImage image transition => direction ("hide " ++ image ++ clause "with" transition)
  | .playMusic file fadeIn => direction ("music " ++ file ++ seconds "fade in" fadeIn)
  | .stopMusic fadeOut => direction ("music stops" ++ seconds "fade out" fadeOut)
  | .pause none => direction "pause"
  | .pause (some n) => direction ("pause " ++ .ofList n.text ++ "s")
  | .choices prompts => numbered 1 prompts
  | .defineCharacter _ _ => ""
  | .setVariable _ _ => ""

def renderEvents (events : List Event) : String :=
  .join (events.map renderEvent)

theorem render_eq (cue : Cue) : render cue = renderEvent (.ofCue cue) := by
  cases cue with
  | speech speaker text => cases speaker <;> rfl
  | pause seconds => cases seconds <;> rfl
  | assign assignment => cases assignment <;> rfl
  | _ => rfl

theorem assemble_map_render (play : Play) :
    assemble (play.log.map render) = renderEvents play.events := by
  rw [assemble, renderEvents, Play.events, ← List.map_reverse, List.map_map]
  exact congrArg String.join (List.map_congr_left fun cue _ => render_eq cue)

/-- The console as a host. It looks names up when it shows them, and changes of the store leave
nothing to show. -/
def host : Host (Notebook String) where
  store := Notebook.store
  withStore := Notebook.withStore
  showDialogue book id text := book.write (book.store.displayName id ++ ": " ++ text ++ "\n")
  showNarration book text := book.write (text ++ "\n")
  showScene book image transition :=
    book.write (direction ("scene " ++ image ++ clause "with" transition))
  showImage book image position transition :=
    book.write (direction ("show " ++ image ++ clause "at" position ++ clause "with" transition))
  hideImage book image transition :=
    book.write (direction ("hide " ++ image ++ clause "with" transition))
  playMusic book file fadeIn :=
    book.write (direction ("music " ++ file ++ seconds "fade in" fadeIn))
  stopMusic book fadeOut := book.write (direction ("music stops" ++ seconds "fade out" fadeOut))
  pause book duration :=
    book.write <|
      match duration with
      | some n => direction ("pause " ++ .ofList n.text ++ "s")
      | none => direction "pause"
  showChoices book prompts := book.write (numbered 1 prompts)

def texts : Cue → List String
  | .assign _ => []
  | cue => [render cue]

theorem reads_host : host.Reads texts where
  store := rfl
  withStore := rfl
  tell book cue hnames := by
    cases cue with
    | speech speaker text =>
      cases speaker with
      | none => rfl
      | some speaker =>
        have hname : speaker.name = book.store.displayName speaker.id :=
          congrArg Speaker.name hnames
        simp only [Host.tell, host, Notebook.write, ← hname]
        rfl
    | pause seconds => cases seconds <;> rfl
    | assign assignment =>
      cases assignment <;>
        simp [Host.tell, host, Notebook.withStore, Store.after, Store.assign, texts]
    | _ => rfl

theorem join_texts (cue : Cue) : String.join (texts cue) = renderEvent (.ofCue cue) := by
  rw [← render_eq]
  cases cue with
  | assign assignment => rfl
  | _ => simp [texts]

theorem join_flatMap_texts (cues : List Cue) :
    String.join (cues.flatMap texts) = renderEvents (cues.map .ofCue) := by
  induction cues with
  | nil => rfl
  | cons cue cues ih =>
    rw [List.flatMap_cons, String.join_append, join_texts, ih, List.map_cons, renderEvents,
      renderEvents, List.map_cons, String.join_cons]

theorem join_entries_onHost (play : Play) :
    String.join (play.onHost texts).state.entries = renderEvents play.events :=
  join_flatMap_texts play.log.reverse

def Progress.ending : Progress → Ending
  | .ended => .finished
  | .wants _ _ => .choicesUsedUp
  | .stuck => .cutShort

def lastShown : Ending → List String
  | .choicesUsedUp => [prompt]
  | _ => []

theorem feed_nil (turns : Nat) (progress : Progress) (screen : Screen) :
    feed turns progress screen [] = some (progress.ending == .cutShort, screen) := by
  cases progress <;> rfl

/-- A session whose play is that of a recording without its log, and which has shown that log,
is such a session again after an advance. -/
theorem advance_takeCues (play : Play) (input : Option Input) :
    advance play.takeCues.2 input (play.log.map render) =
      ((play.advance input).1.takeCues.2, (play.advance input).2,
        (play.advance input).1.log.map render) := by
  have hplay : play = play.takeCues.2.onto play.log := rfl
  have hadvance : play.advance input =
      ((play.takeCues.2.advance input).1.onto play.log, (play.takeCues.2.advance input).2) := by
    conv_lhs => rw [hplay]
    exact Play.advance_onto
  rw [hadvance]
  simp only [advance, Play.takeCues, Play.onto, List.map_reverse, List.reverse_reverse,
    List.map_append]

/-- A session without pauses asks for the reader where a recording ends, for the same reason, and
has shown what was recorded. -/
theorem proceed_takeCues (turns : Nat) (play : Play) (choices : List Nat) (input : Option Input) :
    (proceed turns ⟨play.takeCues.2, choices, true⟩ input (play.log.map render)).map
        (fun (progress, shown) => (progress.ending, shown)) =
      (play.recordWithin turns choices input).map fun (final, ending) =>
        (ending, lastShown ending ++ final.log.map render) := by
  induction turns generalizing play choices input with
  | zero => rfl
  | succ turns ih =>
    have hawaits (next : Play) : next.takeCues.2.awaitsChoice = next.awaitsChoice := rfl
    have hwaits (next : Play) : next.takeCues.2.isWaiting = next.isWaiting := rfl
    rw [proceed, Play.recordWithin, advance_takeCues]
    generalize play.advance input = advanced
    obtain ⟨next, status⟩ := advanced
    cases status with
    | done => rfl
    | continues =>
      simp only [hawaits, hwaits, reduceCtorEq, ite_false, ite_true]
      split
      · cases choices with
        | nil => rfl
        | cons index choices => exact ih next choices (some (.choose index))
      · split
        · exact ih next choices (some .proceed)
        · rfl

/-- Without lines to read a session ends where it asks for the reader. -/
theorem run?_nil (turns : Nat) (script : List Command) (stepLimit : Nat) {choices : List Nat}
    (h : choices ≠ []) :
    run? turns script stepLimit choices [] =
      ((Play.start script stepLimit).recordWithin turns choices none).map fun (final, ending) =>
        (ending == .cutShort, ⟨assemble (lastShown ending ++ final.log.map render), ""⟩) := by
  have hstart : Session.start script stepLimit choices =
      ⟨(Play.start script stepLimit).takeCues.2, choices, true⟩ := by
    cases choices with
    | nil => exact absurd rfl h
    | cons => rfl
  have hends : run? turns script stepLimit choices [] =
      ((proceed turns (.start script stepLimit choices) none []).map
        fun (progress, shown) => (progress.ending, shown)).map
          fun (ending, shown) => (ending == .cutShort, ⟨assemble shown, ""⟩) := by
    rw [run?]
    cases proceed turns (.start script stepLimit choices) none [] with
    | none => rfl
    | some result => exact feed_nil turns result.1 _
  have hsession := proceed_takeCues turns (Play.start script stepLimit) choices none
  rw [hends, hstart, show [] = (Play.start script stepLimit).log.map render from rfl, hsession,
    Option.map_map]
  rfl

theorem assemble_lastShown (play : Play) (ending : Ending) :
    assemble (lastShown ending ++ play.log.map render) =
      renderEvents play.events ++ if ending = .choicesUsedUp then prompt else "" := by
  rw [← assemble_map_render, assemble, assemble, List.reverse_append, String.join_append]
  cases ending <;> rfl

end Console

namespace CommandLine

open Console

/-- The response of a console by the texts that it has shown and why it shows no more. At a menu
without a choice it asks for one, and a play that is cut short is a failure. -/
def Response.ofTexts (stepLimit : Nat) (result : List String × Ending) : Response :=
  let shown := String.join result.1
  match result.2 with
  | .finished => ⟨true, shown, ""⟩
  | .choicesUsedUp => ⟨true, shown ++ prompt, ""⟩
  | .cutShort =>
    ⟨false, shown, report ("no input requested after " ++ toString stepLimit ++ " steps")⟩

/-- The response of a console that shows a transcript. -/
def Response.ofTranscript (stepLimit : Nat) (result : List Event × Ending) : Response :=
  .ofTexts stepLimit (result.1.map renderEvent, result.2)

theorem consoleResponse_eq (stepLimit : Nat) (play : Play) (ending : Ending) :
    consoleResponse stepLimit
        (ending == .cutShort, ⟨assemble (lastShown ending ++ play.log.map render), ""⟩) =
      Response.ofTranscript stepLimit (play.events, ending) := by
  rw [assemble_lastShown]
  cases ending with
  | finished =>
    rw [if_neg nofun, String.append_empty]
    rfl
  | choicesUsedUp => rfl
  | cutShort =>
    rw [if_neg nofun, String.append_empty]
    exact congrArg (Response.mk false _) String.empty_append

/-- The recording loop, run on a console that is the host of the play, leaves the transcript on the
screen. -/
theorem recordWithin_host (turns : Nat) (script : List Command) (choices : List Nat)
    (stepLimit : Nat) :
    ((HostedPlay.start script stepLimit .empty).recordWithin host turns choices none).map
        (fun result => .ofTexts stepLimit (HostedPlay.written result)) =
      (record? turns script choices stepLimit).map (Response.ofTranscript stepLimit) := by
  have hrecord := @Play.recordWithin_onHost _ _ _ (.start script stepLimit) none reads_host
    turns choices
  rw [show HostedPlay.start script stepLimit .empty = (Play.start script stepLimit).onHost texts
    from rfl, hrecord, record?, Option.map_map, Option.map_map]
  refine congrArg (Option.map · _) (funext fun result => ?_)
  simp only [Function.comp_apply, HostedPlay.written, Response.ofTranscript, Response.ofTexts,
    join_entries_onHost, renderEvents]

/-- With choices given beforehand and an empty standard input, playing a script at the console
comes to an end if and only if recording it does, with as many advances. The console then has
shown the events of the transcript one after the other, and a prompt after them if a menu found no
choice left. It fails, with the message about the step limit, if that limit cut the recording
short. A console that is the host of the play responds so, and a recorder that is the host writes
down that transcript. -/
theorem perform?_run_eq (script : List Command) (stepLimit : Nat) {choices : List Nat}
    (h : choices ≠ []) :
    ((∃ turns, (perform? turns (inputLines "") script (.run choices false stepLimit)).isSome) ↔
        ∃ turns, (record? turns script choices stepLimit).isSome) ∧
      ∀ turns,
        perform? turns (inputLines "") script (.run choices false stepLimit) =
          (record? turns script choices stepLimit).map (Response.ofTranscript stepLimit) ∧
        perform? turns (inputLines "") script (.run choices false stepLimit) =
          ((HostedPlay.start script stepLimit .empty).recordWithin host turns choices none).map
            (fun result => .ofTexts stepLimit (HostedPlay.written result)) ∧
        record? turns script choices stepLimit =
          ((HostedPlay.start script stepLimit .empty).recordWithin Host.recorder turns choices
            none).map HostedPlay.written := by
  have hsame (turns : Nat) :
      perform? turns (inputLines "") script (.run choices false stepLimit) =
        (record? turns script choices stepLimit).map (Response.ofTranscript stepLimit) := by
    rw [perform?, show inputLines "" = [] from rfl, run?_nil turns script stepLimit h, record?,
      Option.map_map, Option.map_map]
    exact congrArg (Option.map · _)
      (funext fun result => consoleResponse_eq stepLimit result.1 result.2)
  refine ⟨exists_congr fun turns => ?_, fun turns => ⟨hsame turns, ?_, ?_⟩⟩
  · rw [hsame, Option.isSome_map]
  · rw [recordWithin_host, hsame]
  · exact Play.record?_eq_recorder turns script choices stepLimit

def evening : List Command :=
  [.define "e" "Character(\"Eileen\")" (some ⟨"Character", [⟨none, .text "Eileen"⟩]⟩),
    .dialogue (some "e") "Tea?",
    .menu [⟨"yes", [.define "tea" "True" none, .pause none]⟩, ⟨"no", []⟩],
    .ifBranch "tea" [.scene "kitchen" (some "fade")],
    .menu [⟨"sugar", []⟩]]

def eveningEvents : List Event :=
  [.defineCharacter "e" ⟨"Eileen", "#ffffff", ∅⟩, .dialogue "Eileen" "Tea?",
    .choices ["yes", "no"], .setVariable "tea" (.bool true), .pause none,
    .scene "kitchen" (some "fade"), .choices ["sugar"]]

theorem perform?_run_evening :
    [2, 0] ≠ [] ∧ record? 9 evening [2, 0] 20 = some (eveningEvents, .choicesUsedUp) ∧
      perform? 9 (inputLines "") evening (.run [2, 0] false 20) =
        some ⟨true, "Eileen: Tea?\n  1. yes\n  2. no\n" ++
          "[pause]\n[scene kitchen with fade]\n  1. sugar\n> ", ""⟩ ∧
      ((HostedPlay.start evening 20 .empty).recordWithin host 9 [2, 0] none).map
          (fun result => Response.ofTexts 20 (HostedPlay.written result)) =
        some ⟨true, "Eileen: Tea?\n  1. yes\n  2. no\n" ++
          "[pause]\n[scene kitchen with fade]\n  1. sugar\n> ", ""⟩ := by
  have hchoices : [2, 0] ≠ [] := by decide
  have hrecord : record? 9 evening [2, 0] 20 = some (eveningEvents, .choicesUsedUp) := by
    decide +kernel
  obtain ⟨hshown, hhosted, -⟩ := (perform?_run_eq evening 20 hchoices).2 9
  rw [hrecord] at hshown
  have hresponse : (some (eveningEvents, .choicesUsedUp)).map (Response.ofTranscript 20) =
      some ⟨true, "Eileen: Tea?\n  1. yes\n  2. no\n" ++
        "[pause]\n[scene kitchen with fade]\n  1. sugar\n> ", ""⟩ := by
    decide +kernel
  exact ⟨hchoices, hrecord, hshown.trans hresponse,
    hhosted.symm.trans (hshown.trans hresponse)⟩

end CommandLine

end StoryScript
