import StoryScript.HostCall
import StoryScript.Proofs.Log
import StoryScript.Transcript

/-! # Plays on hosts

A host presents a play and keeps its store. It has a method for everything that is to be
presented, and two kinds of methods that it need not bring itself: without one of its own a scene
is an image without a position, and a change just changes the store. A play on a host reads no
store but that of the host, and tells the host its cues.
-/

namespace StoryScript

/-- What presents a play and keeps its store, by its methods. -/
structure Host (σ : Type) where
  store : σ → Store
  withStore : σ → Store → σ
  /-- A line, with the id of its speaker as it stands in the script. -/
  showDialogue : σ → (id text : String) → σ
  showNarration : σ → (text : String) → σ
  showImage : σ → (image : String) → (position transition : Option String) → σ
  hideImage : σ → (image : String) → (transition : Option String) → σ
  playMusic : σ → (file : String) → (fadeIn : Option Number) → σ
  stopMusic : σ → (fadeOut : Option Number) → σ
  pause : σ → (seconds : Option Number) → σ
  showChoices : σ → (prompts : List String) → σ
  showScene : σ → (image : String) → (transition : Option String) → σ :=
    fun state image transition => showImage state image none transition
  setVariable : σ → (name : String) → (value : Value) → σ :=
    fun state name value => withStore state ((store state).set name value)
  defineCharacter : σ → (id : String) → (character : Character) → σ :=
    fun state id character => withStore state ((store state).define id character)

structure Notebook (α : Type) where
  store : Store
  entries : List α

namespace Notebook

variable {α : Type}

def empty : Notebook α :=
  ⟨∅, []⟩

def write (book : Notebook α) (entry : α) : Notebook α :=
  { book with entries := book.entries ++ [entry] }

def withStore (book : Notebook α) (store : Store) : Notebook α :=
  { book with store := store }

end Notebook

namespace Host

/-- The host that writes down events. It reports the changes of the store. -/
def recorder : Host (Notebook Event) where
  store := Notebook.store
  withStore := Notebook.withStore
  showDialogue book id text := book.write (.dialogue (book.store.displayName id) text)
  showNarration book text := book.write (.narration text)
  showImage book image position transition := book.write (.showImage image position transition)
  hideImage book image transition := book.write (.hideImage image transition)
  playMusic book file fadeIn := book.write (.playMusic file fadeIn)
  stopMusic book fadeOut := book.write (.stopMusic fadeOut)
  pause book seconds := book.write (.pause seconds)
  showChoices book prompts := book.write (.choices prompts)
  showScene book image transition := book.write (.scene image transition)
  setVariable book name value :=
    (book.write (.setVariable name value)).withStore (book.store.set name value)
  defineCharacter book id character :=
    (book.write (.defineCharacter id character)).withStore (book.store.define id character)

/-- The host with no more methods than it must have, which writes down their calls. -/
def plain : Host (Notebook HostCall) where
  store := Notebook.store
  withStore := Notebook.withStore
  showDialogue book id text := book.write (.showDialogue id text)
  showNarration book text := book.write (.showNarration text)
  showImage book image position transition := book.write (.showImage image position transition)
  hideImage book image transition := book.write (.hideImage image transition)
  playMusic book file fadeIn := book.write (.playMusic file fadeIn)
  stopMusic book fadeOut := book.write (.stopMusic fadeOut)
  pause book seconds := book.write (.pause seconds)
  showChoices book prompts := book.write (.showChoices prompts)

variable {σ : Type} (host : Host σ)

def tell (state : σ) : Cue → σ
  | .speech (some speaker) text => host.showDialogue state speaker.id text
  | .speech none text => host.showNarration state text
  | .scene image transition => host.showScene state image transition
  | .showImage image position transition => host.showImage state image position transition
  | .hideImage image transition => host.hideImage state image transition
  | .playMusic file fadeIn => host.playMusic state file fadeIn
  | .stopMusic fadeOut => host.stopMusic state fadeOut
  | .pause seconds => host.pause state seconds
  | .choices prompts => host.showChoices state prompts
  | .assign (.setVariable name value) => host.setVariable state name value
  | .assign (.defineCharacter id character) => host.defineCharacter state id character

/-- The frames and the state after the current command and, if it descends, those after it. Each
command reads the store that the host has at that time. -/
def chain : Nat → Option Input → List Frame → σ → List Frame × σ
  | 0, _, frames, state => (frames, state)
  | fuel + 1, input, frames, state =>
    match Execution.ofFrames (host.store state) input frames with
    | .descend frames => chain fuel none frames state
    | .stop outcome => (outcome.frames, outcome.cues.foldl host.tell state)

end Host

structure HostedPlay (σ : Type) where
  script : List Command
  stepLimit : Nat
  frames : List Frame
  state : σ

namespace HostedPlay

variable {σ : Type}

def start (script : List Command) (stepLimit : Nat) (state : σ) : HostedPlay σ :=
  ⟨script, stepLimit, [.start script], state⟩

variable (host : Host σ)

/-- The play as it looks from outside, without its presentation. Its frames and its store decide
whether it waits, for a choice or for a line to be read, and whether it is over. -/
def seen (play : HostedPlay σ) : Play :=
  ⟨play.script, play.stepLimit, play.frames, host.store play.state, []⟩

def step (play : HostedPlay σ) (input : Option Input) : HostedPlay σ :=
  let frames := Frame.settle play.frames
  let input := if frames.any (·.waiting) then input else none
  let (frames, state) := host.chain (max play.stepLimit 1) input frames play.state
  { play with frames := Frame.settle frames, state := state }

def advanceWithin : Nat → HostedPlay σ → Option Input → HostedPlay σ × Status
  | 0, play, _ => (play, .continues)
  | steps + 1, play, input =>
    let play := play.step host input
    if (play.seen host).isFinished || (play.seen host).isWaiting then
      (play, (play.seen host).status)
    else advanceWithin steps play none

def perform (play : HostedPlay σ) : Operation → HostedPlay σ × Option Status
  | .step input => (play.step host input, some ((play.step host input).seen host).status)
  | .advance input =>
    let (play, status) := advanceWithin host play.stepLimit play input
    (play, some status)
  | .restart =>
    ({ play with frames := [.start play.script], state := host.withStore play.state ∅ }, none)
  | .assign assignment => ({ play with state := host.tell play.state (.assign assignment) }, none)
  | .replaceStore store => ({ play with state := host.withStore play.state store }, none)

def run (play : HostedPlay σ) (operations : List Operation) : HostedPlay σ :=
  operations.foldl (fun play operation => (play.perform host operation).1) play

/-- The play after advances with the choices given until it ends, finds no choice left or gets
stuck, and why it goes no further. At most `turns` advances are made; `none` if they do not
suffice. -/
def recordWithin : Nat → HostedPlay σ → List Nat → Option Input → Option (HostedPlay σ × Ending)
  | 0, _, _, _ => none
  | turns + 1, play, choices, input =>
    match advanceWithin host play.stepLimit play input with
    | (play, .done) => some (play, .finished)
    | (play, .continues) =>
      if (play.seen host).awaitsChoice then
        match choices with
        | [] => some (play, .choicesUsedUp)
        | index :: choices => recordWithin turns play choices (some (.choose index))
      else if (play.seen host).isWaiting then recordWithin turns play choices (some .proceed)
      else some (play, .cutShort)

/-- What a host with a notebook has written down at the end of a recording. -/
def written {α : Type} (result : HostedPlay (Notebook α) × Ending) : List α × Ending :=
  (result.1.state.entries, result.2)

end HostedPlay

end StoryScript
