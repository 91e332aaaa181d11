import Mathlib.Tactic.Common
import StoryScript.Json.Fields
import StoryScript.Proofs.Json.Number

/-! # What documents are read as

A document that has been written is read again with its numbers as their numerals are read. The
other parts stay as they are, and so does the depth.
-/

namespace StoryScript

theorem mapM_eq_some_iff {α β : Type} {f : α → Option β} {items : List α} {found : List β} :
    items.mapM f = some found ↔ items.map f = found.map some := by
  induction items generalizing found with
  | nil => cases found <;> simp
  | cons item items ih =>
    rw [List.mapM_cons]
    cases found with
    | nil => cases f item <;> cases items.mapM f <;> simp
    | cons b found =>
      rw [List.map_cons, List.map_cons, List.cons_eq_cons, ← ih]
      cases f item <;> cases items.mapM f <;> simp

namespace Json

open Numeral

mutual

def reread : Json → Json
  | .integer n => ofNumeral (writeInteger n)
  | .number x => (x.document?.map ofNumeral).getD .null
  | .array items => .array (rereadItems items)
  | .object members => .object (rereadMembers members)
  | .unreadable => .null
  | document => document

def rereadItems : List Json → List Json
  | [] => []
  | item :: items => item.reread :: rereadItems items

def rereadMembers : List (String × Json) → List (String × Json)
  | [] => []
  | (key, value) :: members => (key, value.reread) :: rereadMembers members

end

theorem rereadItems_eq_map (items : List Json) : rereadItems items = items.map reread := by
  induction items with
  | nil => rfl
  | cons item items ih => rw [rereadItems, ih, List.map_cons]

theorem rereadMembers_eq_map (members : List (String × Json)) :
    rereadMembers members = members.map fun (key, value) => (key, value.reread) := by
  induction members with
  | nil => rfl
  | cons member members ih => rw [rereadMembers, ih, List.map_cons]

theorem depthOfItems_le {items : List Json} {depth : Nat} :
    depthOfItems items ≤ depth ↔ ∀ item ∈ items, item.depth ≤ depth := by
  induction items with
  | nil => simp [depthOfItems]
  | cons item items ih => rw [depthOfItems, Nat.max_le, ih, List.forall_mem_cons]

theorem depthOfMembers_le {members : List (String × Json)} {depth : Nat} :
    depthOfMembers members ≤ depth ↔ ∀ member ∈ members, member.2.depth ≤ depth := by
  induction members with
  | nil => simp [depthOfMembers]
  | cons member members ih => rw [depthOfMembers, Nat.max_le, ih, List.forall_mem_cons]

theorem lt_depthOfItems {items : List Json} {depth : Nat} :
    depth < depthOfItems items ↔ ∃ item ∈ items, depth < item.depth := by
  rw [← Nat.not_le, depthOfItems_le]
  simp

theorem lt_depthOfMembers {members : List (String × Json)} {depth : Nat} :
    depth < depthOfMembers members ↔ ∃ member ∈ members, depth < member.2.depth := by
  rw [← Nat.not_le, depthOfMembers_le]
  simp

theorem areReadable_iff {items : List Json} :
    areReadable items = true ↔ ∀ item ∈ items, item.isReadable = true := by
  induction items with
  | nil => simp [areReadable]
  | cons item items ih => rw [areReadable, Bool.and_eq_true, ih, List.forall_mem_cons]

theorem haveReadable_iff {members : List (String × Json)} :
    haveReadable members = true ↔ ∀ member ∈ members, member.2.isReadable = true := by
  induction members with
  | nil => simp [haveReadable]
  | cons member members ih => rw [haveReadable, Bool.and_eq_true, ih, List.forall_mem_cons]

mutual

@[simp] theorem depth_reread (document : Json) : document.reread.depth = document.depth := by
  match document with
  | .null | .unreadable | .bool _ | .text _ => rfl
  | .integer n => exact (isNumeral_writeInteger n).depth
  | .number x =>
    rw [reread]
    cases hx : x.document? with
    | none => rfl
    | some text => exact (Number.isNumeral_document? hx).depth
  | .array items => rw [reread, depth, depthOfItems_reread items, depth]
  | .object members => rw [reread, depth, depthOfMembers_reread members, depth]

theorem depthOfItems_reread (items : List Json) :
    depthOfItems (rereadItems items) = depthOfItems items := by
  match items with
  | [] => rfl
  | item :: items =>
    rw [rereadItems, depthOfItems, depth_reread item, depthOfItems_reread items, depthOfItems]

theorem depthOfMembers_reread (members : List (String × Json)) :
    depthOfMembers (rereadMembers members) = depthOfMembers members := by
  match members with
  | [] => rfl
  | (key, value) :: members =>
    rw [rereadMembers, depthOfMembers, depth_reread value, depthOfMembers_reread members,
      depthOfMembers]

end

end Json

end StoryScript
