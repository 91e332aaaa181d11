import StoryScript.Proofs.Document.Event
import StoryScript.Proofs.Origin
import StoryScript.Proofs.WellFormed.Script

/-! # Transcripts read back

The numbers that a script can give to an event are finite, and the settings of a character never
have the keys of its name and its colour. They may have those of its id and of the kind of the
event, though, and an event with such a setting is not read back.
-/

namespace StoryScript

namespace Value

theorem isFinite_of_mem_numbers (s : String) :
    ∀ x ∈ (ofLiteral s).numbers, x.isFinite = true := by
  rw [ofLiteral, ofTrimmed]
  split
  · simp [numbers]
  · split
    · simp [numbers]
    · split
      · rename_i n hn
        simpa [numbers] using (Number.ofText?_eq_some_iff.1 hn).2
      · simp [numbers]

end Value

namespace Character

variable {args : List (Arg Expr)} {character : Character} {key : String}

theorem Settings.get?_add (hkey : key = "name" ∨ key = "color") (settings : Settings)
    (arg : Arg Expr) : (settings.add arg).extra.get? key = settings.extra.get? key := by
  unfold Settings.add
  split
  · split
    · rfl
    · rename_i keyword hkeyword
      split
      · rfl
      · split
        · rfl
        · have hne : key ≠ keyword := by
            rintro rfl
            rcases hkey with rfl | rfl <;> contradiction
          rw [Table.get?_insert, if_neg hne]
  · rfl

theorem Settings.get?_foldl_add (hkey : key = "name" ∨ key = "color") (settings : Settings) :
    (args.foldl add settings).extra.get? key = settings.extra.get? key := by
  induction args generalizing settings with
  | nil => rfl
  | cons arg args ih => rw [List.foldl_cons, ih, get?_add hkey]

theorem sets_eq_false_of_ofArgs? (hkey : key = "name" ∨ key = "color")
    (h : ofArgs? args = some character) : character.sets key = false := by
  obtain ⟨name, -, rfl⟩ := Option.map_eq_some_iff.1 h
  have hextra : (args.foldl Settings.add ⟨none, none, ∅⟩).extra.get? key = none :=
    Settings.get?_foldl_add hkey ⟨none, none, ∅⟩
  simp [sets, hextra]

end Character

namespace Event

/-- Whether all numbers in an event are finite and no setting in it repeats a name or a colour. -/
structure Sound (event : Event) : Prop where
  isFinite : ∀ x ∈ event.numbers, x.isFinite = true
  sets : ∀ key, key = "name" ∨ key = "color" → event.sets key = false

theorem sound_of_ofDefinition? {name value : String} {definition : Option Call}
    {assignment : Assignment}
    (h : Assignment.ofDefinition? name value definition = some assignment) :
    (ofAssignment assignment).Sound := by
  have hvalue : (setVariable name (.ofLiteral value)).Sound :=
    ⟨Value.isFinite_of_mem_numbers value, fun _ _ => rfl⟩
  unfold Assignment.ofDefinition? at h
  split at h
  · split at h
    · obtain ⟨character, hcharacter, rfl⟩ := Option.map_eq_some_iff.1 h
      constructor
      · simp [ofAssignment, numbers]
      · intro key hkey
        exact Character.sets_eq_false_of_ofArgs? hkey hcharacter
    · cases h
      exact hvalue
  · cases h
    exact hvalue

theorem sound_of_numbers_eq_nil {event : Event} (hnumbers : event.numbers = [])
    (hsets : ∀ key, event.sets key = false) : event.Sound where
  isFinite := by simp [hnumbers]
  sets key _ := hsets key

theorem sound_of_gives {command : Command} {cue : Cue} (hcommand : command.WellFormed)
    (h : command.Gives cue) : (ofCue cue).Sound := by
  -- What a command does gives numbers and settings, what it asks gives neither.
  obtain ⟨store, hact | hquestion⟩ := h
  · cases command with
    | define name value definition =>
      rw [Command.act] at hact
      split at hact
      · obtain rfl := List.mem_singleton.1 hact
        exact sound_of_ofDefinition? ‹_›
      · cases hact
    | playMusic file seconds | stopMusic seconds | pause seconds =>
      obtain rfl := List.mem_singleton.1 hact
      refine ⟨fun x hx => hcommand.form x (Option.mem_toList.1 hx), fun _ _ => rfl⟩
    | scene | showImage | hideImage =>
      obtain rfl := List.mem_singleton.1 hact
      exact sound_of_numbers_eq_nil rfl fun _ => rfl
    | _ => cases hact
  · cases command with
    | dialogue speaker line =>
      cases hquestion
      cases speaker <;> exact sound_of_numbers_eq_nil rfl fun _ => rfl
    | menu choices =>
      cases hquestion
      exact sound_of_numbers_eq_nil rfl fun _ => rfl
    | _ => cases hquestion

end Event

/-- An event that has been recorded from a script is read back from its document, provided that a
finite number in it that has no short decimal is what its own document holds, unless the event
defines a character with a further setting that has the key of the id or of the kind of the event.
Such an event has a field twice, so its document is refused. -/
theorem ofDocument?_of_record? {tabWidth : UInt64} {text : String} {script : List Command}
    {turns stepLimit : Nat} {choices : List Nat} {events : List Event} {ending : Ending}
    (hread : Script.read tabWidth text = .ok script)
    (hrecord : record? turns script choices stepLimit = some (events, ending))
    (style : Json.Style) :
    ∀ event ∈ events, (∀ x ∈ event.numbers, x.isFinite = true → ¬x.IsShort → x.ReadsBack) →
      Event.ofDocument? (.ofList (event.toJson.write style 0 [])) =
        if event.sets "type" || event.sets "id" then none else some event := by
  intro event hevent hnumbers
  obtain ⟨cue, ⟨command, hwithin, hgives⟩, rfl⟩ := exists_cue_of_record? hrecord event hevent
  have hsound := Event.sound_of_gives (Script.wellFormed_of_within hread hwithin) hgives
  have hreads (x : Number) (hx : x ∈ (Event.ofCue cue).numbers) : x.ReadsBack :=
    Number.readsBack_of_not_isShort (hnumbers x hx (hsound.isFinite x hx))
  rw [Event.ofDocument?_write style hreads]
  simp [hsound.sets "name" (.inl rfl), hsound.sets "color" (.inr rfl)]

/-- Two characters are defined with a pause between them, the second one with a setting `id`. -/
def cast : String :=
  "define e = Character('Eileen', mood='calm')\n" ++
    "pause 0.30000000000000004\ndefine f = Character('Fay', id='x')"

def castEvents : List Event :=
  [.defineCharacter "e" ⟨"Eileen", "#ffffff", (∅ : Table String).insert "mood" "calm"⟩,
    .pause (some .aboveThreeTenths),
    .defineCharacter "f" ⟨"Fay", "#ffffff", (∅ : Table String).insert "id" "x"⟩]

theorem exists_record?_cast :
    ∃ script, Script.read Script.defaultTabWidth cast = .ok script ∧
      record? 1 script [] 9 = some (castEvents, .finished) := by
  have hrun : ((Script.read Script.defaultTabWidth cast).toOption.bind
      fun script => record? 1 script [] 9) = some (castEvents, .finished) := by
    decide +kernel
  cases hread : Script.read Script.defaultTabWidth cast with
  | error fault =>
    rw [hread] at hrun
    cases hrun
  | ok script =>
    rw [hread] at hrun
    exact ⟨script, rfl, hrun⟩

theorem ofDocument?_of_record?_cast :
    ∃ script, Script.read Script.defaultTabWidth cast = .ok script ∧
      record? 1 script [] 9 = some (castEvents, .finished) ∧
      (∀ event ∈ castEvents, ∀ x ∈ event.numbers, x.isFinite = true → ¬x.IsShort →
        x.ReadsBack) ∧
      castEvents.map (fun event => event.sets "type" || event.sets "id") = [false, false, true] ∧
      ∀ event ∈ castEvents, Event.ofDocument? (.ofList (event.toJson.write .compact 0 [])) =
        if event.sets "type" || event.sets "id" then none else some event := by
  obtain ⟨script, hread, hrecord⟩ := exists_record?_cast
  have hnumbers : ∀ event ∈ castEvents, ∀ x ∈ event.numbers, x.isFinite = true → ¬x.IsShort →
      x.ReadsBack := by
    decide +kernel
  have hsets : castEvents.map (fun event => event.sets "type" || event.sets "id") =
      [false, false, true] := by
    decide +kernel
  refine ⟨script, hread, hrecord, hnumbers, hsets, fun event hevent => ?_⟩
  exact ofDocument?_of_record? hread hrecord .compact event hevent (hnumbers event hevent)

/-- The definition of the second character is recorded but not read back. -/
theorem exists_event_not_read_back :
    ∃ script events event, Script.read Script.defaultTabWidth cast = .ok script ∧
      record? 1 script [] 9 = some (events, .finished) ∧ event ∈ events ∧ event.numbers = [] ∧
      Event.ofDocument? event.toJson.compact = none := by
  obtain ⟨script, hread, hrecord⟩ := exists_record?_cast
  refine ⟨script, castEvents, castEvents[2], hread, hrecord, by simp, rfl, ?_⟩
  decide +kernel

end StoryScript
