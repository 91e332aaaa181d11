import StoryScript.Document.Store
import StoryScript.Proofs.Document.Record

/-! # Characters read back

The further settings of a character stand beside its name and its colour, in the order in which a
table keeps them. A setting with the key of one of these two repeats a field, and then the document
is refused. All other characters are read back.
-/

namespace StoryScript

open Json

namespace Table

variable {α : Type} {key : String} {value : α} {entries later : List (String × α)}
  {table : Table α} {read : Json → Option α} {encode : α → Json}

theorem insertEntry_eq_concat (h : ∀ entry ∈ entries, entry.1 < key) :
    insertEntry key value entries = entries ++ [(key, value)] := by
  induction entries with
  | nil => rfl
  | cons entry entries ih =>
    obtain ⟨hentry, hentries⟩ := List.forall_mem_cons.1 h
    have hnot : ¬ key < entry.1 := String.lt_asymm hentry
    have hne : key ≠ entry.1 := fun heq => hnot (heq ▸ hentry)
    rw [insertEntry, if_neg hnot, if_neg hne, ih hentries, List.cons_append]

theorem entries_foldl_insert
    (h : (table.entries ++ later).Pairwise fun a b => a.1 < b.1) :
    (later.foldl (fun table entry => table.insert entry.1 entry.2) table).entries =
      table.entries ++ later := by
  induction later generalizing table with
  | nil => simp
  | cons entry later ih =>
    have hlast : (table.insert entry.1 entry.2).entries = table.entries ++ [entry] := by
      apply insertEntry_eq_concat
      intro other hother
      exact (List.pairwise_append.1 h).2.2 other hother entry List.mem_cons_self
    rw [List.foldl_cons, ih (by simpa [hlast] using h), hlast]
    simp

theorem ofList_entries (table : Table α) : ofList table.entries = table := by
  have hentries : (ofList table.entries).entries = table.entries :=
    @entries_foldl_insert α table.entries ∅ table.increasing
  generalize ofList table.entries = made at hentries
  cases made
  cases hentries
  rfl

theorem get?_eq_none_iff : table.get? key = none ↔ ∀ entry ∈ table.entries, entry.1 ≠ key := by
  rw [get?, List.lookup_eq_none_iff]
  exact forall₂_congr fun entry _ => by rw [bne_iff_ne, ne_comm]

theorem mem_entries_iff : (key, value) ∈ table.entries ↔ table.get? key = some value := by
  obtain ⟨entries, hincreasing⟩ := table
  rw [get?]
  induction entries with
  | nil => simp
  | cons entry entries ih =>
    obtain ⟨hfirst, hlater⟩ := List.pairwise_cons.1 hincreasing
    rw [lookup_cons_eq, List.mem_cons]
    split
    · rename_i hkey
      constructor
      · rintro (h | h)
        · rw [← h]
        · exact absurd (hfirst _ h) (by rw [hkey]; exact String.lt_irrefl _)
      · intro h
        left
        rw [Option.some.injEq] at h
        rw [hkey, ← h]
    · rename_i hkey
      rw [← ih hlater]
      constructor
      · rintro (h | h)
        · exact absurd (congrArg Prod.fst h) hkey
        · exact h
      · exact .inr

theorem ofMembers?_entries (h : ∀ entry ∈ table.entries, read (encode entry.2) = some entry.2) :
    ofMembers? read (table.entries.map fun entry => (entry.1, encode entry.2)) = some table := by
  have hread : (table.entries.map fun entry => (entry.1, encode entry.2)).mapM
      (fun member => (read member.2).map (member.1, ·)) = some table.entries := by
    rw [mapM_eq_some_iff, List.map_map]
    refine List.map_congr_left fun entry hentry => ?_
    simp [h entry hentry]
  rw [ofMembers?, hread, Option.map_some, ofList_entries]

end Table

namespace Character

variable {character : Character} {key : String}

def sets (character : Character) (key : String) : Bool :=
  (character.extra.get? key).isSome

def settings (character : Character) : List (String × Json) :=
  character.extra.entries.map fun entry => (entry.1, .text entry.2)

theorem members_eq (character : Character) :
    character.members =
      ("name", .text character.name) :: ("color", .text character.color) :: character.settings :=
  rfl

theorem exists_text_of_mem_members {member : String × Json} (h : member ∈ character.members) :
    ∃ s, member.2 = .text s := by
  rw [members_eq, List.mem_cons, List.mem_cons, settings, List.mem_map] at h
  obtain rfl | rfl | ⟨entry, -, rfl⟩ := h <;> exact ⟨_, rfl⟩

theorem sets_eq_false_iff :
    character.sets key = false ↔ ∀ member ∈ character.settings, member.1 ≠ key := by
  rw [sets, Option.isSome_eq_false_iff, Option.isNone_iff_eq_none, Table.get?_eq_none_iff, settings,
    List.forall_mem_map]

theorem sets_iff : character.sets key = true ↔ ∃ member ∈ character.settings, member.1 = key := by
  simp [← Bool.not_eq_false, sets_eq_false_iff]

theorem rereadMembers_members (character : Character) :
    rereadMembers character.members = character.members := by
  have htexts : rereadMembers character.settings = character.settings := by
    simp [rereadMembers_eq_map, settings, reread]
  rw [members_eq, rereadMembers, rereadMembers, htexts]
  rfl

theorem ofMembers?_settings (character : Character) :
    Table.ofMembers? asText? character.settings = some character.extra :=
  @Table.ofMembers?_entries _ _ asText? .text fun _ _ => rfl

/-- A character is read back unless a further setting repeats its name or its colour. -/
theorem ofMembers?_members (character : Character) :
    ofMembers? character.members =
      if character.sets "name" || character.sets "color" then none else some character := by
  -- The name is looked for first, then the colour, which stands behind it.
  have hcolor : unique? "color" character.members =
      unique? "color" (("color", .text character.color) :: character.settings) :=
    unique?_cons_of_ne (by decide)
  cases hname : character.sets "name" with
  | true =>
    have hrepeated : unique? "name" character.members = none := by
      obtain ⟨member, hmember, hkey⟩ := sets_iff.1 hname
      exact unique?_cons_self_eq_none ⟨member, List.mem_cons_of_mem _ hmember, hkey⟩
    simp [ofMembers?, hrepeated]
  | false =>
    have hothers := sets_eq_false_iff.1 hname
    have hfound : unique? "name" character.members = some (some (.text character.name)) :=
      unique?_cons_self (List.forall_mem_cons.2 ⟨by simp, hothers⟩)
    cases hset : character.sets "color" with
    | true =>
      have hrepeated : unique? "color" character.members = none :=
        hcolor.trans (unique?_cons_self_eq_none (sets_iff.1 hset))
      simp [ofMembers?, hfound, hrepeated]
    | false =>
      have hothers' := sets_eq_false_iff.1 hset
      have hfound' : unique? "color" character.members = some (some (.text character.color)) :=
        hcolor.trans (unique?_cons_self hothers')
      have hsettings : (character.members.filter fun member =>
          member.1 != "name" && member.1 != "color") = character.settings := by
        rw [members_eq, List.filter_cons_of_neg (by simp), List.filter_cons_of_neg (by simp),
          List.filter_eq_self]
        intro member hmember
        simp [hothers member hmember, hothers' member hmember]
      simp [ofMembers?, hfound, hfound', hsettings, ofMembers?_settings, required?, asText?]

end Character

end StoryScript
