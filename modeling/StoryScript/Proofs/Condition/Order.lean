import Mathlib.Data.String.Basic
import StoryScript.Condition.Basic
import StoryScript.Proofs.Number.Numeral

/-! # Relations and the order of texts

Two texts have an order, which is the one of the numbers that both of them denote or else of their
lower-case forms. It is turned round when the texts change places. A relation admits an order, the
opposite relation admits all others, and of less, equal and greater one admits it.
-/

namespace StoryScript

open Numeral

namespace Relation

def opposite : Relation → Relation
  | equal => notEqual
  | notEqual => equal
  | atLeast => less
  | atMost => greater
  | greater => atMost
  | less => atLeast

def converse : Relation → Relation
  | equal => equal
  | notEqual => notEqual
  | atLeast => atMost
  | atMost => atLeast
  | greater => less
  | less => greater

/-- What a relation says in a linear order. -/
def Relates {α : Type} [LinearOrder α] : Relation → α → α → Prop
  | equal, a, b => a = b
  | notEqual, a, b => a ≠ b
  | atLeast, a, b => b ≤ a
  | atMost, a, b => a ≤ b
  | greater, a, b => b < a
  | less, a, b => a < b

@[simp] theorem admits_opposite (relation : Relation) (order : Ordering) :
    relation.opposite.admits order = !relation.admits order := by
  cases relation <;> cases order <;> rfl

@[simp] theorem admits_converse_swap (relation : Relation) (order : Ordering) :
    relation.converse.admits order.swap = relation.admits order := by
  cases relation <;> cases order <;> rfl

theorem existsUnique_admits (order : Ordering) :
    ∃! relation, relation ∈ [less, equal, greater] ∧ admits relation order = true := by
  cases order with
  | lt =>
    refine ⟨less, by decide, fun relation => ?_⟩
    cases relation <;> decide
  | eq =>
    refine ⟨equal, by decide, fun relation => ?_⟩
    cases relation <;> decide
  | gt =>
    refine ⟨greater, by decide, fun relation => ?_⟩
    cases relation <;> decide

theorem admits_compare_iff {α : Type} [LinearOrder α] {relation : Relation} {a b : α} :
    relation.admits (compare a b) = true ↔ relation.Relates a b := by
  cases relation with
  | equal => exact beq_iff_eq.trans compare_eq_iff_eq
  | notEqual => exact bne_iff_ne.trans compare_eq_iff_eq.not
  | atLeast => exact bne_iff_ne.trans compare_ge_iff_ge
  | atMost => exact bne_iff_ne.trans compare_le_iff_le
  | greater => exact beq_iff_eq.trans compare_gt_iff_gt
  | less => exact beq_iff_eq.trans compare_lt_iff_lt

end Relation

namespace Number

variable {a b : Number}

theorem exists_units?_eq_some (h : a.isFinite = true) : ∃ x, a.units? = some x := by
  cases a with
  | finite negative magnitude => exact ⟨_, rfl⟩
  | infinite negative => cases h
  | nan => cases h

theorem compare?_swap (a b : Number) : b.compare? a = (a.compare? b).map Ordering.swap := by
  rw [compare?, compare?]
  cases a.units? with
  | none => cases b.units? <;> rfl
  | some x =>
    cases b.units? with
    | none => rfl
    | some y => exact congrArg some Std.OrientedCmp.eq_swap

end Number

namespace Test

def foldCase (text : String) : String :=
  .ofList (Text.lowercase text.toList)

variable {left right : String}

theorem order?_of_denotes {a b : Number} (ha : Denotes left.toList a) (hafinite : a.isFinite = true)
    (hb : Denotes right.toList b) (hbfinite : b.isFinite = true) :
    ∃ x y, a.units? = some x ∧ b.units? = some y ∧ order? left right = some (compare x y) := by
  obtain ⟨x, hx⟩ := Number.exists_units?_eq_some hafinite
  obtain ⟨y, hy⟩ := Number.exists_units?_eq_some hbfinite
  have hleft := Number.ofText?_eq_some_iff.2 ⟨ha, hafinite⟩
  have hright := Number.ofText?_eq_some_iff.2 ⟨hb, hbfinite⟩
  refine ⟨x, y, hx, hy, ?_⟩
  simp only [order?, hleft, hright, Number.compare?, hx, hy]

theorem order?_of_not_numerals
    (h : ¬(IsFiniteNumeral left.toList ∧ IsFiniteNumeral right.toList)) :
    order? left right = some (compare (foldCase left) (foldCase right)) := by
  rw [order?]
  split
  · rename_i a b hleft hright
    exact absurd ⟨⟨a, Number.ofText?_eq_some_iff.1 hleft⟩, b, Number.ofText?_eq_some_iff.1 hright⟩ h
  · rfl

theorem exists_order? (left right : String) : ∃ order, order? left right = some order := by
  by_cases h : IsFiniteNumeral left.toList ∧ IsFiniteNumeral right.toList
  · obtain ⟨⟨a, ha, hafinite⟩, b, hb, hbfinite⟩ := h
    obtain ⟨x, y, -, -, horder⟩ := order?_of_denotes ha hafinite hb hbfinite
    exact ⟨_, horder⟩
  · exact ⟨_, order?_of_not_numerals h⟩

theorem order?_swap (left right : String) :
    order? right left = (order? left right).map Ordering.swap := by
  rw [order?, order?]
  cases Number.ofText? left.toList with
  | none =>
    cases Number.ofText? right.toList <;> exact congrArg some Std.OrientedCmp.eq_swap
  | some a =>
    cases Number.ofText? right.toList with
    | none => exact congrArg some Std.OrientedCmp.eq_swap
    | some b => exact Number.compare?_swap a b

end Test

end StoryScript
