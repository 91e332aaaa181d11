import Mathlib.Data.List.TakeWhile
import Mathlib.Tactic.Common
import StoryScript.Script.Outline

/-! # Nesting by indentation

The entries of an outline can be found without a stack of open bodies. The body of a header is
there if the line after the header is indented more; it goes on as long as lines are indented at
least as much as that first line. What a header leaves belongs to the body that it stands in.
-/

namespace StoryScript.Script

/-- A structural line in an outline: its number, its indentation and what it adds. -/
structure Placed where
  number : Nat
  indent : Int64
  item : Item

namespace Item

def header? (inMenu : Bool) : Item → Option Header
  | .statement (.header header) => some header
  | .statement (.prompt text) => if inMenu then some (.choice text) else none
  | _ => none

/-- The command that an item without a body is. A block without a speaker is spoken by the last
one. -/
def leaf? (last : Option String) : Item → Option Command
  | .block speaker text => some (.dialogue (speaker <|> last) text)
  | .statement (.simple command) => some command
  | .statement (.prompt text) => some (.dialogue none text)
  | .statement _ => none

def speaker (last : Option String) : Item → Option String
  | .block speaker _ => speaker <|> last
  | .statement (.simple (.dialogue speaker _)) => speaker <|> last
  | _ => last

end Item

/-- The lines in the body of a header: those after the header that are indented at least as much
as the first of them, if that is indented more than the header. -/
def bodyOf (indent : Int64) : List Placed → List Placed
  | [] => []
  | first :: later =>
    if indent < first.indent then (first :: later).takeWhile (first.indent ≤ ·.indent) else []

/-- The lines after the body of a header. -/
def pastBody (indent : Int64) : List Placed → List Placed
  | [] => []
  | first :: later =>
    if indent < first.indent then (first :: later).dropWhile (first.indent ≤ ·.indent)
    else first :: later

@[simp] theorem bodyOf_append_pastBody (indent : Int64) (lines : List Placed) :
    bodyOf indent lines ++ pastBody indent lines = lines := by
  cases lines with
  | nil => rfl
  | cons first later =>
    rw [bodyOf, pastBody]
    split
    · exact List.takeWhile_append_dropWhile
    · rfl

theorem mem_of_mem_bodyOf {indent : Int64} {line : Placed} {lines : List Placed}
    (h : line ∈ bodyOf indent lines) : line ∈ lines := by
  rw [← bodyOf_append_pastBody indent lines]
  exact List.mem_append_left _ h

theorem mem_of_mem_pastBody {indent : Int64} {line : Placed} {lines : List Placed}
    (h : line ∈ pastBody indent lines) : line ∈ lines := by
  rw [← bodyOf_append_pastBody indent lines]
  exact List.mem_append_right _ h

theorem length_bodyOf_le (indent : Int64) (lines : List Placed) :
    (bodyOf indent lines).length ≤ lines.length := by
  have h := congrArg List.length (bodyOf_append_pastBody indent lines)
  rw [List.length_append] at h
  omega

theorem length_pastBody_le (indent : Int64) (lines : List Placed) :
    (pastBody indent lines).length ≤ lines.length := by
  have h := congrArg List.length (bodyOf_append_pastBody indent lines)
  rw [List.length_append] at h
  omega

/-- The entries of lines that stand directly in one body. -/
def nest (inMenu : Bool) (last : Option String) : List Placed → List Entry
  | [] => []
  | line :: later =>
    match line.item.header? inMenu with
    | some header =>
      .node line.number header (nest (header == .menu) none (bodyOf line.indent later)) ::
        nest inMenu last (pastBody line.indent later)
    | none =>
      (line.item.leaf? last).toList.map (.leaf line.number) ++
        nest inMenu (line.item.speaker last) later
termination_by lines => lines.length
decreasing_by
  · exact Nat.lt_succ_of_le (length_bodyOf_le _ _)
  · exact Nat.lt_succ_of_le (length_pastBody_le _ _)
  · exact Nat.lt_succ_self _

@[simp] theorem nest_nil {inMenu : Bool} {last : Option String} : nest inMenu last [] = [] := by
  rw [nest]

theorem nest_of_header {inMenu : Bool} {last : Option String} {line : Placed} {header : Header}
    (later : List Placed) (h : line.item.header? inMenu = some header) :
    nest inMenu last (line :: later) =
      .node line.number header (nest (header == .menu) none (bodyOf line.indent later)) ::
        nest inMenu last (pastBody line.indent later) := by
  rw [nest, h]

theorem nest_of_leaf {inMenu : Bool} {last : Option String} {line : Placed}
    (later : List Placed) (h : line.item.header? inMenu = none) :
    nest inMenu last (line :: later) =
      (line.item.leaf? last).toList.map (.leaf line.number) ++
        nest inMenu (line.item.speaker last) later := by
  rw [nest, h]

section Split

variable {indent least : Int64} {lines later : List Placed}

theorem takeWhile_eq_nil (h : ∀ line ∈ later.head?, line.indent < least) :
    later.takeWhile (least ≤ ·.indent) = [] := by
  cases later with
  | nil => rfl
  | cons line later =>
    have hline : ¬least ≤ line.indent := Int64.not_le.2 (h line rfl)
    rw [List.takeWhile_cons, if_neg (by simpa using hline)]

theorem dropWhile_eq_self (h : ∀ line ∈ later.head?, line.indent < least) :
    later.dropWhile (least ≤ ·.indent) = later := by
  have hsplit := List.takeWhile_append_dropWhile (p := fun line => least ≤ line.indent) (l := later)
  rwa [takeWhile_eq_nil h] at hsplit

theorem takeWhile_append_of_nil {p : Placed → Bool} (h : later.takeWhile p = []) :
    (lines ++ later).takeWhile p = lines.takeWhile p := by
  rw [List.takeWhile_append, h, List.append_nil]
  split
  · rename_i hlength
    exact ((List.takeWhile_prefix p).eq_of_length hlength).symm
  · rfl

theorem bodyOf_append (h : ∀ line ∈ later.head?, line.indent ≤ indent) :
    bodyOf indent (lines ++ later) = bodyOf indent lines := by
  cases lines with
  | nil =>
    cases later with
    | nil => rfl
    | cons line later =>
      have hline : ¬indent < line.indent := Int64.not_lt.2 (h line rfl)
      simp only [List.nil_append, bodyOf, hline, ite_false]
  | cons first rest =>
    rw [List.cons_append, bodyOf, bodyOf]
    split
    · rename_i hfirst
      rw [← List.cons_append]
      refine takeWhile_append_of_nil (takeWhile_eq_nil ?_)
      exact fun line hline => Int64.lt_of_le_of_lt (h line hline) hfirst
    · rfl

theorem pastBody_append (h : ∀ line ∈ later.head?, line.indent ≤ indent) :
    pastBody indent (lines ++ later) = pastBody indent lines ++ later := by
  have hbody : bodyOf indent (lines ++ later) ++ pastBody indent (lines ++ later) =
      bodyOf indent lines ++ (pastBody indent lines ++ later) := by
    rw [bodyOf_append_pastBody, ← List.append_assoc, bodyOf_append_pastBody]
  rw [bodyOf_append h] at hbody
  exact List.append_cancel_left hbody

end Split

end StoryScript.Script
