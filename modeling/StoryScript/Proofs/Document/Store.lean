import StoryScript.Proofs.Document.Transcript
import StoryScript.Proofs.Operation

/-! # Stores read back

The store of a play is saved as a table of its variables and one of its characters. No definition
in a script gives an infinite number or a setting that repeats a name or a colour, so as long as
the host gives none either, the store is read back from its document after every run.
-/

namespace StoryScript

open Json

namespace Table

variable {α : Type} {read : Json → Option α} {encode : α → Json} {table : Table α} {depth : Nat}

theorem ofJson?_reread
    (h : ∀ entry ∈ table.entries, read (encode entry.2).reread = some entry.2) :
    ofJson? read (table.toJson encode).reread = some table := by
  have hmembers : (table.toJson encode).reread =
      .object (table.entries.map fun entry => (entry.1, (encode entry.2).reread)) := by
    rw [toJson, reread, rereadMembers_eq_map, List.map_map]
    rfl
  rw [hmembers]
  exact @ofMembers?_entries _ _ _ (fun value => (encode value).reread) h

theorem depth_toJson_le (h : ∀ entry ∈ table.entries, (encode entry.2).depth ≤ depth) :
    (table.toJson encode).depth ≤ depth + 1 := by
  rw [toJson, Json.depth, Nat.add_le_add_iff_right, depthOfMembers_le, List.forall_mem_map]
  exact h

end Table

namespace Character

theorem ofJson?_reread (character : Character) :
    ofJson? character.toJson.reread =
      if character.sets "name" || character.sets "color" then none else some character := by
  rw [toJson, reread, rereadMembers_members]
  exact ofMembers?_members character

theorem depth_toJson_le (character : Character) : character.toJson.depth ≤ 1 := by
  rw [toJson, depth, Nat.add_le_add_iff_right, depthOfMembers_le]
  intro member hmember
  obtain ⟨s, hs⟩ := exists_text_of_mem_members hmember
  simp [hs, depth]

end Character

namespace Store

variable {store : Store}

def numbers (store : Store) : List Number :=
  store.values.entries.flatMap (·.2.numbers)

/-- Whether all numbers in a store are finite and no setting of a character repeats its name or its
colour. -/
structure Sound (store : Store) : Prop where
  isFinite : ∀ x ∈ store.numbers, x.isFinite = true
  sets : ∀ id character, store.character? id = some character →
    character.sets "name" = false ∧ character.sets "color" = false

theorem mem_numbers_iff {x : Number} :
    x ∈ store.numbers ↔ ∃ name value, store.get? name = some value ∧ x ∈ value.numbers := by
  simp only [numbers, List.mem_flatMap, Prod.exists, Table.mem_entries_iff]
  rfl

/-! ## The document of a store -/

/-- A store is read back if its numbers are and no character gives a field twice. -/
theorem ofJson?_reread (hnumbers : ∀ x ∈ store.numbers, x.ReadsBack)
    (hsets : ∀ id character, store.character? id = some character →
      character.sets "name" = false ∧ character.sets "color" = false) :
    ofJson? store.toJson.reread = some store := by
  have hvalues : Table.ofJson? Value.ofJson? (store.values.toJson Value.toJson).reread =
      some store.values := by
    apply Table.ofJson?_reread
    intro entry hentry
    apply Value.ofJson?_reread
    intro x hx
    exact hnumbers x (List.mem_flatMap_of_mem hentry hx)
  have hcharacters :
      Table.ofJson? Character.ofJson? (store.characters.toJson Character.toJson).reread =
        some store.characters := by
    apply Table.ofJson?_reread
    rintro ⟨id, character⟩ hentry
    obtain ⟨hname, hcolor⟩ := hsets id character (Table.mem_entries_iff.1 hentry)
    rw [Character.ofJson?_reread, hname, hcolor]
    rfl
  have hfields := fields?_reread_record ["variables", "characters"]
    [some (store.values.toJson Value.toJson), some (store.characters.toJson Character.toJson)]
    rfl (by decide)
  have hrecord : store.toJson = .object (record ["variables", "characters"]
      [some (store.values.toJson Value.toJson),
        some (store.characters.toJson Character.toJson)]) := rfl
  rw [ofJson?, hrecord, hfields]
  simp [required?, hvalues, hcharacters]

theorem depth_toJson_le (store : Store) : store.toJson.depth ≤ 3 := by
  have hvalues : (store.values.toJson Value.toJson).depth ≤ 1 :=
    Table.depth_toJson_le fun entry _ => Nat.le_of_eq entry.2.depth_toJson
  have hcharacters : (store.characters.toJson Character.toJson).depth ≤ 2 :=
    Table.depth_toJson_le fun entry _ => entry.2.depth_toJson_le
  simp only [toJson, depth, depthOfMembers]
  omega

theorem ofDocument?_write (style : Style) (hnumbers : ∀ x ∈ store.numbers, x.ReadsBack)
    (hsets : ∀ id character, store.character? id = some character →
      character.sets "name" = false ∧ character.sets "color" = false) :
    ofDocument? (.ofList (store.toJson.write style 0 [])) = some store := by
  have hdepth : store.toJson.depth ≤ depthLimit := Nat.le_trans store.depth_toJson_le (by decide)
  rw [ofDocument?, String.toList_ofList, parse?_write style hdepth, Option.bind_some]
  exact ofJson?_reread hnumbers hsets

/-! ## What a run puts into a store -/

theorem Sound.assign (h : store.Sound) {assignment : Assignment}
    (ha : (Event.ofAssignment assignment).Sound) : (store.assign assignment).Sound := by
  cases assignment with
  | setVariable name value =>
    refine ⟨fun x hx => ?_, h.sets⟩
    obtain ⟨other, found, hfound, hx⟩ := mem_numbers_iff.1 hx
    rw [Store.assign, set, get?, Table.get?_insert] at hfound
    split at hfound
    · cases hfound
      exact ha.isFinite x hx
    · exact h.isFinite x (mem_numbers_iff.2 ⟨other, found, hfound, hx⟩)
  | defineCharacter id character =>
    refine ⟨h.isFinite, fun other found hfound => ?_⟩
    rw [Store.assign, define, character?, Table.get?_insert] at hfound
    split at hfound
    · cases hfound
      exact ⟨ha.sets "name" (.inl rfl), ha.sets "color" (.inr rfl)⟩
    · exact h.sets other found hfound

theorem Sound.act (h : store.Sound) (command : Command) : (command.act store).1.Sound := by
  unfold Command.act
  split
  case h_2 name value definition =>
    split
    · rename_i assignment hassignment
      exact h.assign (Event.sound_of_ofDefinition? hassignment)
    · exact h
  all_goals exact h

theorem Sound.ofFrames (h : store.Sound) {input : Option Input} {frames : List Frame}
    {outcome : Outcome} (he : Execution.ofFrames store input frames = .stop outcome) :
    outcome.store.Sound := by
  cases frames with
  | nil =>
    cases he
    exact h
  | cons frame outer =>
    have hexec : Execution.Executes store input frame outer
        (Execution.ofFrames store input (frame :: outer)) := Execution.executes_ofFrames
    rw [he] at hexec
    cases hexec with
    | plain => exact h.act _
    | _ => exact h

theorem Sound.chain (h : store.Sound) (fuel : Nat) (input : Option Input) (frames : List Frame) :
    (Execution.chain store fuel input frames).store.Sound := by
  induction fuel generalizing input frames with
  | zero => exact h
  | succ fuel ih =>
    rw [Execution.chain]
    cases he : Execution.ofFrames store input frames with
    | descend found => exact ih none found
    | stop outcome => exact h.ofFrames he

end Store

namespace Play

variable {play : Play}

end Play

def visit : List Command :=
  [.define "e" "Character('Eileen', mood='calm')"
      (some ⟨"Character", [⟨none, .text "Eileen"⟩, ⟨some "mood", .text "calm"⟩]⟩),
    .define "visits" "-0.30000000000000004" none,
    .dialogue (some "e") "Hello.",
    .define "met" "True" none]

end StoryScript
