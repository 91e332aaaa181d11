import Mathlib.Data.List.Nodup
import StoryScript.Proofs.Nesting.Draft

/-! # Where the lines of an outline stand

Visited from the top, with each header before its body, the entries of an outline keep the order
of the lines. A line stands in the body of a header exactly if all lines from the one after the
header on are indented at least as much as that one, and it is indented more than the header.
-/

namespace StoryScript.Script

namespace Item

/-- Whether an item adds an entry. -/
def adds : Item → Bool
  | .statement .ignored => false
  | _ => true

end Item

namespace Entry

def line : Entry → Nat
  | leaf line _ => line
  | node line _ _ => line

mutual

/-- An entry and the entries inside it, in the order of their lines. -/
def withInner : Entry → List Entry
  | leaf line command => [leaf line command]
  | node line header entries => node line header entries :: preorder entries

def preorder : List Entry → List Entry
  | [] => []
  | entry :: entries => entry.withInner ++ preorder entries

end

theorem preorder_append (entries more : List Entry) :
    preorder (entries ++ more) = preorder entries ++ preorder more := by
  induction entries with
  | nil => rfl
  | cons entry entries ih => rw [List.cons_append, preorder, preorder, ih, List.append_assoc]

mutual

theorem mem_withInner_cases {entry found : Entry} (h : found ∈ entry.withInner) :
    found = entry ∨ ∃ line header body, node line header body ∈ entry.withInner ∧ found ∈ body := by
  cases entry with
  | leaf line command =>
    rw [withInner, List.mem_singleton] at h
    exact .inl h
  | node line header entries =>
    rw [withInner] at h ⊢
    rcases List.mem_cons.1 h with h | h
    · exact .inl h
    · right
      rcases mem_preorder_cases h with h | ⟨inner, other, body, hnode, hfound⟩
      · exact ⟨line, header, entries, List.mem_cons_self, h⟩
      · exact ⟨inner, other, body, List.mem_cons_of_mem _ hnode, hfound⟩

theorem mem_preorder_cases {entries : List Entry} {found : Entry} (h : found ∈ preorder entries) :
    found ∈ entries ∨
      ∃ line header body, node line header body ∈ preorder entries ∧ found ∈ body := by
  cases entries with
  | nil => cases h
  | cons entry entries =>
    rw [preorder] at h ⊢
    rcases List.mem_append.1 h with h | h
    · rcases mem_withInner_cases h with rfl | ⟨line, header, body, hnode, hfound⟩
      · exact .inl List.mem_cons_self
      · exact .inr ⟨line, header, body, List.mem_append_left _ hnode, hfound⟩
    · rcases mem_preorder_cases h with h | ⟨line, header, body, hnode, hfound⟩
      · exact .inl (List.mem_cons_of_mem _ h)
      · exact .inr ⟨line, header, body, List.mem_append_right _ hnode, hfound⟩

end

end Entry

/-- An entry stands directly in the outermost body, or in that of a header. -/
inductive Entry.Stands (entries : List Entry) : Option Header → Entry → Prop
  | outermost {entry} : entry ∈ entries → Entry.Stands entries none entry
  | inside {line header body entry} : .node line header body ∈ preorder entries → entry ∈ body →
      Entry.Stands entries (some header) entry

/-- An entry is what a line adds to the body that it stands in directly. -/
inductive Placed.Gives (inMenu : Bool) (line : Placed) : Entry → Prop
  | node {header body} : line.item.header? inMenu = some header →
      line.Gives inMenu (.node line.number header body)
  | leaf {last command} : line.item.header? inMenu = none → line.item.leaf? last = some command →
      line.Gives inMenu (.leaf line.number command)

open Entry

variable {inMenu : Bool} {last : Option String} {lines : List Placed} {number : Nat}
  {header : Header} {body : List Entry}

namespace Item

theorem adds_of_header? {item : Item} {header : Header} (h : item.header? inMenu = some header) :
    item.adds = true := by
  match item with
  | .block _ _ => rfl
  | .statement .ignored => cases h
  | .statement (.simple _) => rfl
  | .statement (.header _) => rfl
  | .statement (.prompt _) => rfl

theorem adds_of_leaf? {item : Item} (last : Option String) (h : item.header? inMenu = none) :
    item.adds = (item.leaf? last).isSome := by
  match item with
  | .block _ _ => rfl
  | .statement .ignored => rfl
  | .statement (.simple _) => rfl
  | .statement (.header _) => cases h
  | .statement (.prompt _) => rfl

end Item

/-- Each line that adds something adds one entry, and the entries keep the order of the lines. -/
theorem line_preorder_nest :
    (preorder (nest inMenu last lines)).map (·.line) =
      (lines.filter (·.item.adds)).map (·.number) := by
  fun_induction nest inMenu last lines with
  | case1 => rfl
  | case2 inMenu last line later header h ihbody ihpast =>
    have hlater := bodyOf_append_pastBody line.indent later
    rw [List.filter_cons, if_pos (Item.adds_of_header? h), List.map_cons, ← hlater,
      List.filter_append, List.map_append, ← ihbody, ← ihpast, hlater, preorder, withInner,
      List.map_append, List.map_cons, List.cons_append]
    rfl
  | case3 inMenu last line later h ih =>
    have hadds := Item.adds_of_leaf? last h
    rw [preorder_append, List.map_append, ih, List.filter_cons]
    cases hleaf : line.item.leaf? last with
    | none =>
      rw [hleaf] at hadds
      rw [if_neg (by simp [hadds])]
      rfl
    | some command =>
      rw [hleaf] at hadds
      rw [Option.isSome_some] at hadds
      rw [if_pos hadds]
      rfl

theorem indent_le_of_mem_bodyOf {indent : Int64} {line : Placed} {later : List Placed}
    (h : line ∈ bodyOf indent later) :
    ∀ next ∈ (pastBody indent later).head?, next.indent ≤ line.indent := by
  cases later with
  | nil => cases h
  | cons first rest =>
    rw [bodyOf] at h
    split at h
    · rename_i hfirst
      intro next hnext
      rw [pastBody, if_pos hfirst] at hnext
      have hdropped := List.head?_dropWhile_not (first.indent ≤ ·.indent) (first :: rest)
      rw [hnext] at hdropped
      have hless : next.indent < first.indent := by simpa using hdropped
      have hle : first.indent ≤ line.indent := by simpa using List.mem_takeWhile_imp h
      exact Int64.le_of_lt (Int64.lt_of_lt_of_le hless hle)
    · cases h

/-- A header stands on its own line, with the body that the lines after it give it. -/
theorem exists_line_of_mem_preorder_nest
    (h : .node number header body ∈ preorder (nest inMenu last lines)) :
    ∃ before line later, lines = before ++ line :: later ∧ line.number = number ∧
      body = nest (header == .menu) none (bodyOf line.indent later) := by
  fun_induction nest inMenu last lines with
  | case1 => cases h
  | case2 inMenu last line later found hfound ihbody ihpast =>
    rw [preorder, withInner, List.mem_append, List.mem_cons] at h
    rcases h with (h | h) | h
    · cases h
      exact ⟨[], line, later, rfl, rfl, rfl⟩
    · obtain ⟨before, inner, after, hsplit, hnumber, hbody⟩ := ihbody h
      have hlater := bodyOf_append_pastBody line.indent later
      rw [hsplit, List.append_assoc, List.cons_append] at hlater
      have hmem : inner ∈ bodyOf line.indent later := by simp [hsplit]
      refine ⟨line :: before, inner, after ++ pastBody line.indent later, ?_, hnumber, ?_⟩
      · rw [List.cons_append, hlater]
      · rw [bodyOf_append (indent_le_of_mem_bodyOf hmem), hbody]
    · obtain ⟨before, other, after, hsplit, hnumber, hbody⟩ := ihpast h
      have hlater := bodyOf_append_pastBody line.indent later
      rw [hsplit] at hlater
      refine ⟨line :: (bodyOf line.indent later ++ before), other, after, ?_, hnumber, hbody⟩
      rw [List.cons_append, List.append_assoc, hlater]
  | case3 inMenu last line later hnone ih =>
    rw [preorder_append, List.mem_append] at h
    rcases h with h | h
    · cases hleaf : line.item.leaf? last with
      | none => simp [hleaf, preorder] at h
      | some command => simp [hleaf, preorder, withInner] at h
    · obtain ⟨before, other, after, hsplit, hnumber, hbody⟩ := ih h
      exact ⟨line :: before, other, after, by rw [hsplit, List.cons_append], hnumber, hbody⟩

/-- A header that stands on a line whatever is around it has its entry. -/
theorem exists_node_of_mem {line : Placed} (hmem : line ∈ lines)
    (h : line.item = .statement (.header header)) :
    ∃ body, .node line.number header body ∈ preorder (nest inMenu last lines) := by
  fun_induction nest inMenu last lines with
  | case1 => cases hmem
  | case2 inMenu last first later found hfound ihbody ihpast =>
    simp only [preorder, withInner, List.mem_append, List.mem_cons]
    rcases List.mem_cons.1 hmem with rfl | hmem
    · rw [h] at hfound
      cases hfound
      exact ⟨_, .inl (.inl rfl)⟩
    · rw [← bodyOf_append_pastBody first.indent later, List.mem_append] at hmem
      rcases hmem with hmem | hmem
      · obtain ⟨body, hbody⟩ := ihbody hmem
        exact ⟨body, .inl (.inr hbody)⟩
      · obtain ⟨body, hbody⟩ := ihpast hmem
        exact ⟨body, .inr hbody⟩
  | case3 inMenu last first later hnone ih =>
    simp only [preorder_append, List.mem_append]
    rcases List.mem_cons.1 hmem with rfl | hmem
    · rw [h] at hnone
      cases hnone
    · obtain ⟨body, hbody⟩ := ih hmem
      exact ⟨body, .inr hbody⟩

theorem exists_line_of_mem_nest {entry : Entry} (h : entry ∈ nest inMenu last lines) :
    ∃ line ∈ lines, line.Gives inMenu entry := by
  fun_induction nest inMenu last lines with
  | case1 => cases h
  | case2 inMenu last first later found hfound _ ihpast =>
    rcases List.mem_cons.1 h with rfl | h
    · exact ⟨first, List.mem_cons_self, .node hfound⟩
    · obtain ⟨line, hline, hgives⟩ := ihpast h
      exact ⟨line, List.mem_cons_of_mem _ (mem_of_mem_pastBody hline), hgives⟩
  | case3 inMenu last first later hnone ih =>
    rcases List.mem_append.1 h with h | h
    · obtain ⟨command, hcommand, rfl⟩ := List.mem_map.1 h
      exact ⟨first, List.mem_cons_self, .leaf hnone (Option.mem_toList.1 hcommand)⟩
    · obtain ⟨line, hline, hgives⟩ := ih h
      exact ⟨line, List.mem_cons_of_mem _ hline, hgives⟩

theorem mem_takeWhile_iff {p : Placed → Bool} {line : Placed} {between later : List Placed}
    (hnew : line ∉ between) :
    line ∈ (between ++ line :: later).takeWhile p ↔ ∀ other ∈ between ++ [line], p other := by
  induction between with
  | nil => cases h : p line <;> simp [h]
  | cons first between ih =>
    rw [List.mem_cons, not_or] at hnew
    obtain ⟨hfirst, hrest⟩ := hnew
    cases h : p first <;> simp [h, hfirst, ih hrest]

/-- A line stands in the body of a header exactly if the first line after the header is indented
more than the header and no line up to this one is indented less than that. -/
theorem mem_bodyOf_iff {indent : Int64} {line : Placed} {between later : List Placed}
    (hnew : line ∉ between) :
    line ∈ bodyOf indent (between ++ line :: later) ↔
      ∃ first ∈ (between ++ [line]).head?, indent < first.indent ∧
        ∀ other ∈ between ++ [line], first.indent ≤ other.indent := by
  have hbody (first : Placed) (rest : List Placed)
      (hsplit : between ++ line :: later = first :: rest) :
      line ∈ bodyOf indent (between ++ line :: later) ↔ indent < first.indent ∧
        ∀ other ∈ between ++ [line], first.indent ≤ other.indent := by
    have htake := @mem_takeWhile_iff (first.indent ≤ ·.indent) line between later hnew
    simp only [decide_eq_true_eq] at htake
    rw [← htake, hsplit, bodyOf]
    split
    · rename_i hfirst
      exact ⟨fun h => ⟨hfirst, h⟩, And.right⟩
    · rename_i hfirst
      exact ⟨fun h => (List.not_mem_nil h).elim, fun h => absurd h.1 hfirst⟩
  cases between with
  | nil => simpa using hbody line later rfl
  | cons first rest => simpa using hbody first (rest ++ line :: later) rfl

theorem split_unique (hnodup : (lines.map (·.number)).Nodup) {first second : Placed}
    {before after before' after' : List Placed} (hfirst : lines = before ++ first :: after)
    (hsecond : lines = before' ++ second :: after') (hnumber : first.number = second.number) :
    first = second ∧ after = after' := by
  have hsame : first = second :=
    List.inj_on_of_nodup_map hnodup (by simp [hfirst]) (by simp [hsecond]) hnumber
  have hlines : lines.Nodup := .of_map _ hnodup
  subst hsame
  rw [hfirst, List.nodup_middle, List.nodup_cons, List.mem_append, not_or] at hlines
  obtain ⟨⟨hbefore, hafter⟩, -⟩ := hlines
  rw [hfirst] at hsecond
  exact ⟨rfl, ((List.append_cons_inj_of_notMem hbefore hafter).1 hsecond).2.2⟩

/-- A line that adds something stands in the body of a header exactly if the lines from the
header on are indented accordingly. -/
theorem mem_body_iff (hnodup : (lines.map (·.number)).Nodup) {opener line : Placed}
    {before between after : List Placed}
    (hsplit : lines = before ++ opener :: (between ++ line :: after)) (hadds : line.item.adds)
    (hnode : .node opener.number header body ∈ preorder (nest inMenu last lines)) :
    line.number ∈ (preorder body).map (·.line) ↔
      ∃ first ∈ (between ++ [line]).head?, opener.indent < first.indent ∧
        ∀ other ∈ between ++ [line], first.indent ≤ other.indent := by
  obtain ⟨before', found, later, hfound, hnumber, rfl⟩ := exists_line_of_mem_preorder_nest hnode
  obtain ⟨rfl, rfl⟩ := split_unique hnodup hfound hsplit hnumber
  have hnew : line ∉ between := by
    have hlines : lines.Nodup := .of_map _ hnodup
    rw [hsplit, List.nodup_append, List.nodup_cons, List.nodup_middle, List.nodup_cons] at hlines
    exact fun h => hlines.2.1.2.1 (List.mem_append_left _ h)
  rw [line_preorder_nest, ← mem_bodyOf_iff hnew]
  constructor
  · intro h
    obtain ⟨other, hother, hnumber⟩ := List.mem_map.1 h
    have hbody := List.mem_of_mem_filter hother
    have hmem := mem_of_mem_bodyOf hbody
    have hsame : other = line := List.inj_on_of_nodup_map hnodup
      (by rw [hsplit]; exact List.mem_append_right _ (List.mem_cons_of_mem _ hmem))
      (by simp [hsplit]) hnumber
    rwa [hsame] at hbody
  · intro h
    exact List.mem_map_of_mem (List.mem_filter.2 ⟨h, hadds⟩)

theorem gives_of_stands {around : Option Header} {entry : Entry}
    (h : Stands (nest false none lines) around entry) :
    ∃ line ∈ lines, line.Gives (around == some .menu) entry := by
  cases h with
  | outermost hmem => exact exists_line_of_mem_nest hmem
  | inside hnode hmem =>
    obtain ⟨before, line, later, rfl, -, rfl⟩ := exists_line_of_mem_preorder_nest hnode
    obtain ⟨other, hother, hgives⟩ := exists_line_of_mem_nest hmem
    refine ⟨other, ?_, hgives⟩
    exact List.mem_append_right _ (List.mem_cons_of_mem _ (mem_of_mem_bodyOf hother))

theorem exists_stands_of_mem_preorder {entries : List Entry} {entry : Entry}
    (h : entry ∈ preorder entries) : ∃ around, Stands entries around entry := by
  rcases mem_preorder_cases h with h | ⟨line, header, body, hnode, hmem⟩
  · exact ⟨none, .outermost h⟩
  · exact ⟨some header, .inside hnode hmem⟩

end StoryScript.Script
