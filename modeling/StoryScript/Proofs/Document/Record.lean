import Mathlib.Tactic.Common
import StoryScript.Proofs.Json.Document

/-! # Records in documents

A record is written as an object whose members have the names of the fields, in their order. A
field without a value is left out, and it is found absent again.
-/

namespace StoryScript

namespace Json

variable {key : String} {keys : List String} {values : List (Option Json)} {value tag : Json}
  {members : List (String × Json)}

def record : List String → List (Option Json) → List (String × Json)
  | key :: keys, some value :: values => (key, value) :: record keys values
  | _ :: keys, none :: values => record keys values
  | _, _ => []

theorem rereadMembers_record (keys : List String) (values : List (Option Json)) :
    rereadMembers (record keys values) = record keys (values.map (·.map reread)) := by
  induction keys generalizing values with
  | nil => cases values <;> rfl
  | cons key keys ih =>
    cases values with
    | nil => rfl
    | cons value values =>
      cases value with
      | none => exact ih values
      | some value =>
        rw [record, rereadMembers, ih]
        rfl

theorem isReadable_reread_record
    (h : ∀ value ∈ values, ∀ document ∈ value, document.reread.isReadable = true) :
    (reread (.object (record keys values))).isReadable = true := by
  rw [reread, isReadable]
  induction keys generalizing values with
  | nil => cases values <;> rfl
  | cons key keys ih =>
    cases values with
    | nil => rfl
    | cons value values =>
      obtain ⟨hvalue, hvalues⟩ := List.forall_mem_cons.1 h
      cases value with
      | none => exact ih hvalues
      | some value =>
        rw [record, rereadMembers, haveReadable, hvalue value rfl, ih hvalues, Bool.and_self]

theorem depthOfMembers_record_le {depth : Nat}
    (h : ∀ value ∈ values, ∀ document ∈ value, document.depth ≤ depth) :
    depthOfMembers (record keys values) ≤ depth := by
  induction keys generalizing values with
  | nil => cases values <;> exact Nat.zero_le _
  | cons key keys ih =>
    cases values with
    | nil => exact Nat.zero_le _
    | cons value values =>
      obtain ⟨hvalue, hvalues⟩ := List.forall_mem_cons.1 h
      cases value with
      | none => exact ih hvalues
      | some value =>
        rw [record, depthOfMembers, Nat.max_le]
        exact ⟨hvalue value rfl, ih hvalues⟩

theorem mem_keys_of_mem_record {member : String × Json} (h : member ∈ record keys values) :
    member.1 ∈ keys := by
  induction keys generalizing values with
  | nil => cases values <;> cases h
  | cons key keys ih =>
    cases values with
    | nil => cases h
    | cons value values =>
      cases value with
      | none => exact List.mem_cons_of_mem _ (ih h)
      | some value =>
        rcases List.mem_cons.1 h with rfl | h
        · exact List.mem_cons_self
        · exact List.mem_cons_of_mem _ (ih h)

theorem ne_of_mem_record (h : key ∉ keys) : ∀ member ∈ record keys values, member.1 ≠ key := by
  rintro member hmember rfl
  exact h (mem_keys_of_mem_record hmember)

theorem filter_eq_nil_of_ne (h : ∀ member ∈ members, member.1 ≠ key) :
    members.filter (·.1 == key) = [] := by
  simpa [List.filter_eq_nil_iff] using h

theorem filter_eq_self_of_ne (h : ∀ member ∈ members, member.1 ≠ key) :
    members.filter (·.1 != key) = members := by
  simpa [List.filter_eq_self] using h

theorem unique?_cons_self (h : ∀ member ∈ members, member.1 ≠ key) :
    unique? key ((key, value) :: members) = some (some value) := by
  rw [unique?, List.filter_cons_of_pos (by simp), filter_eq_nil_of_ne h]

theorem unique?_cons_self_eq_none (h : ∃ member ∈ members, member.1 = key) :
    unique? key ((key, value) :: members) = none := by
  obtain ⟨member, hmember, hkey⟩ := h
  have hfilter : member ∈ members.filter (·.1 == key) := by simp [hmember, hkey]
  rw [unique?, List.filter_cons_of_pos (by simp)]
  cases hothers : members.filter (·.1 == key) with
  | nil => simp [hothers] at hfilter
  | cons other others => rfl

theorem unique?_cons_of_ne {other : String} (h : other ≠ key) :
    unique? key ((other, value) :: members) = unique? key members := by
  rw [unique?, unique?, List.filter_cons_of_neg (by simpa using h)]

theorem fields?_record (hlength : keys.length = values.length) (hnodup : keys.Nodup) :
    fields? keys (.object (record keys values)) = some values := by
  rw [fields?, mapM_eq_some_iff]
  induction keys generalizing values with
  | nil => cases values <;> first | rfl | cases hlength
  | cons key keys ih =>
    cases values with
    | nil => cases hlength
    | cons value values =>
      obtain ⟨hkey, hnodup⟩ := List.nodup_cons.1 hnodup
      have hlater := ih (Nat.succ.inj hlength) hnodup
      cases value with
      | none =>
        rw [record, List.map_cons, hlater, unique?, filter_eq_nil_of_ne (ne_of_mem_record hkey)]
        rfl
      | some value =>
        have hothers : keys.map (unique? · ((key, value) :: record keys values)) =
            keys.map (unique? · (record keys values)) := by
          refine List.map_congr_left fun other hother => unique?_cons_of_ne ?_
          rintro rfl
          exact hkey hother
        rw [record, List.map_cons, hothers, hlater, unique?_cons_self (ne_of_mem_record hkey),
          List.map_cons]

theorem fields?_reread_record (keys : List String) (values : List (Option Json))
    (hlength : keys.length = values.length) (hnodup : keys.Nodup) :
    fields? keys (reread (.object (record keys values))) = some (values.map (·.map reread)) := by
  rw [reread, rereadMembers_record]
  exact fields?_record (by rwa [List.length_map]) hnodup

theorem tagged?_cons (h : ∀ member ∈ members, member.1 ≠ "type") :
    tagged? (.object (("type", tag) :: members)) = some (tag, .object members) := by
  rw [tagged?, unique?_cons_self h, List.filter_cons_of_neg (by simp), filter_eq_self_of_ne h]

theorem tagged?_cons_eq_none (h : ∃ member ∈ members, member.1 = "type") :
    tagged? (.object (("type", tag) :: members)) = none := by
  rw [tagged?, unique?_cons_self_eq_none h]

theorem tagged?_record (h : "type" ∉ keys) :
    tagged? (.object (("type", tag) :: record keys values)) =
      some (tag, .object (record keys values)) :=
  tagged?_cons (ne_of_mem_record h)

theorem isReadable_reread_array {α : Type} {encode : α → Json} {items : List α} :
    (reread (.array (items.map encode))).isReadable = true ↔
      ∀ item ∈ items, (encode item).reread.isReadable = true := by
  rw [reread, isReadable, rereadItems_eq_map, areReadable_iff, List.map_map, List.forall_mem_map]
  rfl

theorem optional?_reread {α : Type} {read : Json → Option α} {encode : α → Json}
    {value : Option α} (hnull : read .null = none) :
    optional? read ((value.map encode).map reread) = some value ↔
      ∀ a ∈ value, read (encode a).reread = some a := by
  cases value with
  | none => exact ⟨fun _ => nofun, fun _ => rfl⟩
  | some a =>
    have hfield : optional? read (some (encode a).reread) = some (some a) ↔
        read (encode a).reread = some a := by
      cases (encode a).reread with
      | null => simp [optional?, hnull]
      | _ => simp [optional?]
    rw [Option.map_some, Option.map_some, hfield]
    simp

theorem asText?_reread (s : String) : (Json.text s).reread.asText? = some s :=
  rfl

theorem optional?_text (text : Option String) :
    optional? asText? ((text.map .text).map reread) = some text :=
  (optional?_reread rfl).2 fun _ _ => rfl

theorem listOrEmpty?_reread {α : Type} {read : Json → Option α} {encode : α → Json}
    {items : List α} :
    listOrEmpty? read (some (reread (.array (items.map encode)))) = some items ↔
      ∀ item ∈ items, read (encode item).reread = some item := by
  rw [reread, rereadItems_eq_map, listOrEmpty?, asList?, mapM_eq_some_iff, List.map_map,
    List.map_map, List.map_inj_left]
  rfl

end Json

namespace Number

open Json

variable {x : Number}

/-- Whether the document of a number holds this number, and not another one near to it. -/
def ReadsBack (x : Number) : Prop :=
  (read? (Json.number x).compact.toList).bind asNumber? = some x

instance (x : Number) : Decidable x.ReadsBack :=
  inferInstanceAs (Decidable (_ = _))

theorem isReadable_of_asNumber? {document : Json} (h : document.asNumber? = some x) :
    document.isReadable = true := by
  cases document with
  | integer n => rfl
  | number y => rfl
  | _ => cases h

theorem readsBack_iff : x.ReadsBack ↔ (Json.number x).reread.asNumber? = some x := by
  rw [ReadsBack, compact, String.toList_ofList, read?_write]
  split
  · rfl
  · rename_i hunreadable
    constructor
    · nofun
    · intro h
      exact absurd ⟨Nat.zero_le _, isReadable_of_asNumber? h⟩ hunreadable

/-- A finite number whose decimal in documents is short. -/
def IsShort : Number → Prop
  | finite _ m => (m.shortest .toEven).IsShort
  | _ => False

instance (x : Number) : Decidable x.IsShort :=
  match x with
  | finite _ m => inferInstanceAs (Decidable (m.shortest .toEven).IsShort)
  | infinite _ => instDecidableFalse
  | nan => instDecidableFalse

/-- The document of a number with a short decimal holds this number. -/
theorem IsShort.readsBack (h : x.IsShort) : x.ReadsBack := by
  cases x with
  | infinite negative => exact h.elim
  | nan => exact h.elim
  | finite negative m =>
    have hspells := m.spells_shortest .toEven
    obtain ⟨whole, fraction, tail, exponent, zeros, hwritten⟩ := Decimal.exists_writtenAs hspells
    rw [readsBack_iff, reread, document?, Option.map_some, Option.getD_some, hwritten.layout,
      ofNumeral_parts hwritten.isWhole hwritten.isDigit hwritten.isExponent, hwritten.marked,
      ofParts, hwritten.scaled? hspells h]
    rfl

theorem readsBack_of_not_isShort (h : ¬x.IsShort → x.ReadsBack) : x.ReadsBack := by
  by_cases hshort : x.IsShort
  · exact hshort.readsBack
  · exact h hshort

/-- The number 0.30000000000000004, which has no short decimal. -/
def aboveThreeTenths : Number :=
  .finite false ⟨5404319552844596, 1020, by decide⟩

-- Digits that do not fit into a significand of 53 bits are rounded before the point is placed.
example :
    (Decimal.magnitude? ⟨12356740629632343, -14⟩).map (fun m =>
      decide (Number.finite false m).ReadsBack) = some false := by
  decide +kernel

theorem ReadsBack.isReadable (h : x.ReadsBack) : (Json.number x).reread.isReadable = true :=
  isReadable_of_asNumber? (readsBack_iff.1 h)

theorem ReadsBack.isFinite (h : x.ReadsBack) : x.isFinite = true := by
  cases x with
  | finite negative m => rfl
  | infinite negative => cases readsBack_iff.1 h
  | nan => cases readsBack_iff.1 h

theorem optional?_number {value : Option Number} :
    optional? asNumber? ((value.map .number).map reread) = some value ↔
      ∀ x ∈ value, x.ReadsBack := by
  simp only [@optional?_reread _ asNumber? .number value rfl, readsBack_iff]

end Number

end StoryScript
