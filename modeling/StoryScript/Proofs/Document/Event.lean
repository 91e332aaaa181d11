import StoryScript.Document.Event
import StoryScript.Proofs.Document.Character

/-! # Events read back

The document of an event holds the event again if its numbers are read back and no field is given
twice. Only the further settings of a character can repeat a field: the kind of the event, the id,
the name or the colour.
-/

namespace StoryScript

open Json

namespace Value

def numbers : Value → List Number
  | .number x => [x]
  | _ => []

variable {value : Value}

theorem ofJson?_of_asNumber? {document : Json} {x : Number} (h : document.asNumber? = some x) :
    ofJson? document = some (.number x) := by
  cases document with
  | integer n => simp [ofJson?, h]
  | number y => simp [ofJson?, h]
  | _ => cases h

theorem ofJson?_reread (h : ∀ x ∈ value.numbers, x.ReadsBack) :
    ofJson? value.toJson.reread = some value := by
  cases value with
  | bool b => rfl
  | text s => rfl
  | number x => exact ofJson?_of_asNumber? (Number.readsBack_iff.1 (h x List.mem_cons_self))

theorem isReadable_reread (h : ∀ x ∈ value.numbers, x.ReadsBack) :
    value.toJson.reread.isReadable = true := by
  cases value with
  | bool b => rfl
  | text s => rfl
  | number x => exact (h x List.mem_cons_self).isReadable

theorem depth_toJson (value : Value) : value.toJson.depth = 0 := by
  cases value <;> rfl

end Value

namespace Event

def numbers : Event → List Number
  | playMusic _ fadeIn => fadeIn.toList
  | stopMusic fadeOut => fadeOut.toList
  | pause seconds => seconds.toList
  | setVariable _ value => value.numbers
  | _ => []

/-- Whether an event defines a character with a further setting that has the key given. -/
def sets (event : Event) (key : String) : Bool :=
  match event with
  | defineCharacter _ character => character.sets key
  | _ => false

def kind : Event → String
  | dialogue .. => "dialogue"
  | narration _ => "narration"
  | scene .. => "scene"
  | showImage .. => "show"
  | hideImage .. => "hide"
  | playMusic .. => "play_music"
  | stopMusic _ => "stop_music"
  | pause _ => "pause"
  | choices _ => "choices"
  | defineCharacter .. => "define_character"
  | setVariable .. => "set_variable"

/-- The members of the document of an event after the first one, which names its kind. -/
def members : Event → List (String × Json)
  | dialogue speaker line => record ["speaker", "text"] [some (.text speaker), some (.text line)]
  | narration line => record ["text"] [some (.text line)]
  | scene image transition =>
    record ["image", "transition"] [some (.text image), transition.map .text]
  | showImage image position transition =>
    record ["image", "position", "transition"]
      [some (.text image), position.map .text, transition.map .text]
  | hideImage image transition =>
    record ["image", "transition"] [some (.text image), transition.map .text]
  | playMusic file fadeIn => record ["file", "fade_in"] [some (.text file), fadeIn.map .number]
  | stopMusic fadeOut => record ["fade_out"] [fadeOut.map .number]
  | pause seconds => record ["seconds"] [seconds.map .number]
  | choices prompts => record ["prompts"] [some (.array (prompts.map .text))]
  | defineCharacter id character => ("id", .text id) :: character.members
  | setVariable name value => record ["name", "value"] [some (.text name), some value.toJson]

theorem toJson_eq (event : Event) :
    event.toJson = .object (("type", .text event.kind) :: event.members) := by
  cases event with
  | scene image transition => cases transition <;> rfl
  | showImage image position transition => cases position <;> cases transition <;> rfl
  | hideImage image transition => cases transition <;> rfl
  | playMusic file fadeIn => cases fadeIn <;> rfl
  | stopMusic fadeOut => cases fadeOut <;> rfl
  | pause seconds => cases seconds <;> rfl
  | _ => rfl

variable {event : Event} {key : String}

def rereadFields (event : Event) : Json :=
  reread (.object event.members)

/-- The fields that are read for a kind of event give the event, unless one is given twice. -/
theorem read?_rereadFields (h : ∀ x ∈ event.numbers, x.ReadsBack) :
    read? event.kind event.rereadFields =
      if event.sets "id" || event.sets "name" || event.sets "color" then none else some event := by
  cases event with
  | dialogue | narration | scene | showImage | hideImage =>
    simp [-Option.map_map, read?, kind, rereadFields, members, sets, fields?_reread_record,
      required?, optional?_text, asText?_reread]
  | playMusic _ value | stopMusic value | pause value =>
    have hvalue := Number.optional?_number.2 fun x hx => h x (Option.mem_toList.2 hx)
    simp [-Option.map_map, read?, kind, rereadFields, members, sets, fields?_reread_record,
      required?, asText?_reread, hvalue]
  | choices prompts =>
    have hprompts := (@listOrEmpty?_reread _ asText? .text prompts).2 fun _ _ => rfl
    rw [listOrEmpty?] at hprompts
    simp [read?, kind, rereadFields, members, sets, fields?_reread_record, required?, hprompts]
  | setVariable name value =>
    simp [read?, kind, rereadFields, members, sets, fields?_reread_record, required?,
      asText?_reread, Value.ofJson?_reread h]
  | defineCharacter id character =>
    have hfields : (defineCharacter id character).rereadFields =
        .object (("id", .text id) :: character.members) := by
      rw [rereadFields, reread, members, rereadMembers, character.rereadMembers_members]
      rfl
    cases hid : character.sets "id" with
    | true =>
      have hrepeated : unique? "id" (("id", .text id) :: character.members) = none := by
        obtain ⟨member, hmember, hkey⟩ := Character.sets_iff.1 hid
        refine unique?_cons_self_eq_none ⟨member, ?_, hkey⟩
        exact List.mem_cons_of_mem _ (List.mem_cons_of_mem _ hmember)
      simp [read?, kind, hfields, hrepeated, sets, hid]
    | false =>
      have hothers : ∀ member ∈ character.members, member.1 ≠ "id" := by
        have hsettings := Character.sets_eq_false_iff.1 hid
        simpa [Character.members_eq] using hsettings
      have hread : read? "define_character" (.object (("id", .text id) :: character.members)) =
          (Character.ofMembers? character.members).map (defineCharacter id) := by
        simp [read?, unique?_cons_self hothers, filter_eq_self_of_ne hothers, required?, asText?,
          Option.map_eq_bind]
      rw [kind, hfields, hread, Character.ofMembers?_members]
      simp only [sets, hid, Bool.false_or]
      split <;> rfl

theorem sets_type_eq_false_iff :
    event.sets "type" = false ↔ ∀ member ∈ rereadMembers event.members, member.1 ≠ "type" := by
  rw [rereadMembers_eq_map, List.forall_mem_map]
  cases event with
  | defineCharacter id character =>
    simp [sets, Character.sets_eq_false_iff, members, Character.members_eq]
  | _ => exact ⟨fun _ => ne_of_mem_record (by decide), fun _ => rfl⟩

/-- An event whose numbers are read back is read back, unless a field is given twice. -/
theorem ofJson?_reread (h : ∀ x ∈ event.numbers, x.ReadsBack) :
    ofJson? event.toJson.reread =
      if ["type", "id", "name", "color"].any event.sets then none else some event := by
  have htagged : event.toJson.reread =
      .object (("type", .text event.kind) :: rereadMembers event.members) := by
    rw [toJson_eq, reread, rereadMembers]
    rfl
  rw [ofJson?, htagged]
  -- A repeated kind is refused before any other field is looked at.
  cases htype : event.sets "type" with
  | true =>
    have hmember : ∃ member ∈ rereadMembers event.members, member.1 = "type" := by
      by_contra hnone
      have hfalse := sets_type_eq_false_iff.2 (by simpa only [not_exists, not_and] using hnone)
      exact Bool.false_ne_true (hfalse.symm.trans htype)
    rw [tagged?_cons_eq_none hmember]
    simp [htype]
  | false =>
    rw [tagged?_cons (sets_type_eq_false_iff.1 htype)]
    refine (read?_rereadFields h).trans ?_
    simp [htype, or_assoc]

theorem depth_toJson_le (event : Event) : event.toJson.depth ≤ 2 := by
  have hmembers : depthOfMembers event.members ≤ 1 := by
    cases event with
    | choices prompts =>
      have hprompts : depthOfItems (prompts.map .text) ≤ 0 := by
        rw [depthOfItems_le]
        simp [depth]
      apply depthOfMembers_record_le
      simpa [depth] using hprompts
    | defineCharacter id character =>
      rw [members, depthOfMembers_le, List.forall_mem_cons]
      refine ⟨by simp [depth], fun member hmember => ?_⟩
      obtain ⟨s, hs⟩ := Character.exists_text_of_mem_members hmember
      simp [hs, depth]
    | setVariable name value =>
      apply depthOfMembers_record_le
      simp [depth, Value.depth_toJson]
    | _ =>
      apply depthOfMembers_record_le
      simp [depth]
  simpa [toJson_eq, depth, depthOfMembers] using hmembers

theorem isReadable_reread (h : ∀ x ∈ event.numbers, x.ReadsBack) :
    event.toJson.reread.isReadable = true := by
  have htext (s : String) : (Json.text s).reread.isReadable = true := rfl
  have hmembers : event.rereadFields.isReadable = true := by
    cases event with
    | playMusic _ value | stopMusic value | pause value =>
      have hvalue : ∀ x ∈ value, (Json.number x).reread.isReadable = true := fun x hx =>
        (h x (Option.mem_toList.2 hx)).isReadable
      apply isReadable_reread_record
      simpa [htext] using hvalue
    | choices prompts =>
      apply isReadable_reread_record
      simp [isReadable_reread_array, htext]
    | defineCharacter id character =>
      rw [rereadFields, reread, isReadable, haveReadable_iff, rereadMembers_eq_map,
        List.forall_mem_map, members, List.forall_mem_cons]
      refine ⟨htext id, fun member hmember => ?_⟩
      obtain ⟨s, hs⟩ := Character.exists_text_of_mem_members hmember
      simp [hs, htext]
    | setVariable name value =>
      apply isReadable_reread_record
      simp [htext, Value.isReadable_reread h]
    | _ =>
      apply isReadable_reread_record
      simp [htext]
  rw [rereadFields, reread, isReadable] at hmembers
  rw [toJson_eq, reread, rereadMembers, isReadable, haveReadable, hmembers]
  rfl

theorem ofDocument?_write (style : Style) (h : ∀ x ∈ event.numbers, x.ReadsBack) :
    ofDocument? (.ofList (event.toJson.write style 0 [])) =
      if ["type", "id", "name", "color"].any event.sets then none else some event := by
  have hdepth : event.toJson.depth ≤ depthLimit := Nat.le_trans event.depth_toJson_le (by decide)
  rw [ofDocument?, String.toList_ofList, read?_write, if_pos ⟨hdepth, isReadable_reread h⟩,
    Option.bind_some, ofJson?_reread h]

end Event

end StoryScript
