import StoryScript.Proofs.Nesting.Basic

/-! # Drafts and nesting

An outline is read with a stack of open bodies, each of which remembers the indentation of its
first line. What the open bodies take of the lines to come is what the nesting by indentation
gives them, so both find the same entries.
-/

namespace StoryScript.Script

namespace Body

def share (body : Body) (opener : Opener) (lines : List Placed) : List Placed :=
  match body.indent with
  | some least => lines.takeWhile (least ≤ ·.indent)
  | none => bodyOf opener.indent lines

/-- The lines that a body that is open leaves of those to come. -/
def rest (body : Body) (opener : Opener) (lines : List Placed) : List Placed :=
  match body.indent with
  | some least => lines.dropWhile (least ≤ ·.indent)
  | none => pastBody opener.indent lines

end Body

namespace Draft

/-- The entries of a draft after the lines to come, with all its bodies closed. -/
def complete : Body → List (Opener × Body) → List Placed → List Entry
  | body, [], lines => body.entries.reverse ++ nest false body.speaker lines
  | body, (opener, parent) :: enclosing, lines =>
    let entries := nest (opener.header == .menu) body.speaker (body.share opener lines)
    complete
      (parent.add (.node opener.line opener.header (body.entries.reverse ++ entries)))
      enclosing (body.rest opener lines)

/-- The bodies of a draft are indented more than their headers, and each header at least as much
as the body that it stands in. The outermost body has no least indentation. -/
inductive Ordered : Body → List (Opener × Body) → Prop
  | outermost {body} : Ordered body []
  | inside {body opener parent enclosing} :
      (∀ least, body.indent = some least → opener.indent < least) →
      (∃ least, parent.indent = some least ∧ (enclosing ≠ [] → least ≤ opener.indent)) →
      Ordered parent enclosing → Ordered body ((opener, parent) :: enclosing)

variable {body : Body} {opener : Opener} {parent : Body} {enclosing : List (Opener × Body)}
  {line : Placed} {lines later : List Placed}

theorem share_of_endsAt (ho : ∀ least, body.indent = some least → opener.indent < least)
    (he : body.endsAt opener line.indent = true) :
    body.share opener (line :: later) = [] ∧
      body.rest opener (line :: later) = line :: later := by
  simp only [Body.endsAt, Bool.or_eq_true, decide_eq_true_eq] at he
  cases hb : body.indent with
  | none =>
    have hline : ¬opener.indent < line.indent := by
      rw [hb] at he
      exact Int64.not_lt.2 (he.resolve_left Bool.false_ne_true)
    simp only [Body.share, Body.rest, hb, bodyOf, pastBody, hline, ite_false, and_self]
  | some least =>
    have hline : line.indent < least := by
      rw [hb, Option.any_some, decide_eq_true_eq] at he
      exact he.elim id fun h => Int64.lt_of_le_of_lt h (ho least hb)
    have hnot : ¬least ≤ line.indent := Int64.not_le.2 hline
    simp only [Body.share, Body.rest, hb, List.takeWhile_cons, List.dropWhile_cons, hnot,
      decide_false, Bool.false_eq_true, ite_false, and_self]

theorem Ordered.of_indent {other : Body} (ho : Ordered body enclosing)
    (hi : other.indent = body.indent) : Ordered other enclosing := by
  obtain _ | ⟨hbody, hparent, houter⟩ := ho
  · exact .outermost
  · exact .inside (fun least h => hbody least (hi ▸ h)) hparent houter

theorem complete_of_endsAt (ho : ∀ least, body.indent = some least → opener.indent < least)
    (he : body.endsAt opener line.indent = true) :
    complete body ((opener, parent) :: enclosing) (line :: later) =
      complete (parent.add (body.toEntry opener)) enclosing (line :: later) := by
  obtain ⟨hshare, hrest⟩ := share_of_endsAt ho he
  rw [complete, hshare, hrest, nest_nil, List.append_nil, Body.toEntry]

theorem complete_closeWhile (ho : Ordered body enclosing) :
    let draft := closeWhile (·.endsAt · line.indent) body enclosing
    Ordered draft.body draft.enclosing ∧
      (∀ opener parent outer, draft.enclosing = (opener, parent) :: outer →
        draft.body.endsAt opener line.indent = false) ∧
      complete draft.body draft.enclosing (line :: later) =
        complete body enclosing (line :: later) := by
  induction enclosing generalizing body with
  | nil =>
    refine ⟨ho, ?_, rfl⟩
    rintro _ _ _ ⟨⟩
  | cons first enclosing ih =>
    obtain ⟨opener, parent⟩ := first
    simp only [closeWhile]
    split
    · rename_i he
      obtain _ | ⟨hbody, -, houter⟩ := ho
      have hadd : Ordered (parent.add (body.toEntry opener)) enclosing := houter.of_indent rfl
      rw [complete_of_endsAt hbody he]
      exact ih hadd
    · rename_i he
      refine ⟨ho, ?_, rfl⟩
      rintro _ _ _ ⟨⟩
      exact Bool.of_not_eq_true he

/-- The body stands ready for a line: its least indentation is known, and the line is in it. -/
structure Ready (body : Body) (enclosing : List (Opener × Body)) (indent : Int64) : Prop where
  ordered : Ordered body enclosing
  least : ∃ least, body.indent = some least ∧ (enclosing ≠ [] → least ≤ indent)

/-- A line that does not end a body fixes its indentation if none has done so before. -/
theorem ready_touch (ho : Ordered body enclosing)
    (he : ∀ opener parent outer, enclosing = (opener, parent) :: outer →
      body.endsAt opener line.indent = false) :
    Ready (body.touch line.indent) enclosing line.indent ∧
      complete (body.touch line.indent) enclosing (line :: later) =
        complete body enclosing (line :: later) := by
  cases ho with
  | outermost =>
    refine ⟨⟨.outermost, ?_⟩, rfl⟩
    cases hb : body.indent <;> exact ⟨_, by rw [Body.touch, hb]; rfl, fun h => absurd rfl h⟩
  | @inside _ opener parent enclosing hbody hparent houter =>
    have hends := he opener parent enclosing rfl
    simp only [Body.endsAt, Bool.or_eq_false_iff, decide_eq_false_iff_not, Int64.not_le] at hends
    obtain ⟨hleast, hopener⟩ := hends
    cases hb : body.indent with
    | some least =>
      have htouch : body.touch line.indent = body := by
        cases body
        cases hb
        rfl
      rw [htouch]
      rw [hb, Option.any_some, decide_eq_false_iff_not, Int64.not_lt] at hleast
      exact ⟨⟨.inside hbody hparent houter, least, hb, fun _ => hleast⟩, rfl⟩
    | none =>
      have htouch : (body.touch line.indent).indent = some line.indent := by
        rw [Body.touch, hb]
        rfl
      refine ⟨⟨.inside ?_ hparent houter, line.indent, htouch, fun _ => Int64.le_rfl⟩, ?_⟩
      · intro least h
        rw [htouch] at h
        cases h
        exact hopener
      · simp only [complete, Body.share, Body.rest, htouch, hb, bodyOf, pastBody, hopener, ite_true]
        rfl

def note (body : Body) (number : Nat) (item : Item) : Body :=
  { body with
    entries := (item.leaf? body.speaker).toList.map (.leaf number) ++ body.entries
    speaker := item.speaker body.speaker }

variable {draft : Draft} {indent : Int64} {number : Nat} {item : Item}

theorem place_of_header {header : Header}
    (h : item.header? (draft.enter indent).inMenu = some header) :
    draft.place number indent item = (draft.enter indent).openBody ⟨number, indent, header⟩ := by
  unfold place
  match item with
  | .block speaker text => cases h
  | .statement .ignored => cases h
  | .statement (.simple command) => cases h
  | .statement (.header header) =>
    cases h
    rfl
  | .statement (.prompt text) =>
    simp only [Item.header?] at h
    split at h
    · rename_i hmenu
      cases h
      exact if_pos hmenu
    · cases h

theorem place_of_leaf (h : item.header? (draft.enter indent).inMenu = none) :
    draft.place number indent item =
      ⟨note (draft.enter indent).body number item, (draft.enter indent).enclosing⟩ := by
  unfold place
  match item with
  | .block speaker text => rfl
  | .statement .ignored => rfl
  | .statement (.simple command) => cases command <;> rfl
  | .statement (.header header) => cases h
  | .statement (.prompt text) =>
    simp only [Item.header?] at h
    split at h
    · cases h
    · rename_i hmenu
      exact if_neg hmenu

theorem reverse_entries_note :
    (note body number item).entries.reverse =
      body.entries.reverse ++ (item.leaf? body.speaker).toList.map (.leaf number) := by
  unfold note
  cases item.leaf? body.speaker <;> simp

theorem share_cons {least : Int64} (hb : body.indent = some least) (hl : least ≤ line.indent) :
    body.share opener (line :: later) = line :: body.share opener later ∧
      body.rest opener (line :: later) = body.rest opener later := by
  simp only [Body.share, Body.rest, hb, List.takeWhile_cons, List.dropWhile_cons, hl, decide_true,
    ite_true, and_self]

/-- A header takes the lines of its body from those that its own body takes. -/
theorem share_past {least : Int64} (hb : body.indent = some least) (hl : least ≤ line.indent) :
    bodyOf line.indent (body.share opener later) = bodyOf line.indent later ∧
      pastBody line.indent (body.share opener later) =
        body.share opener (pastBody line.indent later) ∧
      body.rest opener (pastBody line.indent later) = body.rest opener later := by
  simp only [Body.share, Body.rest, hb]
  have hsplit := List.takeWhile_append_dropWhile (p := fun line => least ≤ line.indent) (l := later)
  generalize hinside : later.takeWhile (least ≤ ·.indent) = inside at hsplit ⊢
  generalize houtside : later.dropWhile (least ≤ ·.indent) = outside at hsplit ⊢
  have hin : ∀ other ∈ inside, least ≤ other.indent := by
    intro other h
    rw [← hinside] at h
    simpa using List.mem_takeWhile_imp h
  have hout : ∀ other ∈ outside.head?, other.indent < least := by
    intro other h
    rw [← houtside] at h
    have := List.head?_dropWhile_not (least ≤ ·.indent) later
    rw [h] at this
    simpa using this
  have hends : ∀ other ∈ outside.head?, other.indent ≤ line.indent := fun other h =>
    Int64.le_of_lt (Int64.lt_of_lt_of_le (hout other h) hl)
  have hpast : ∀ other ∈ pastBody line.indent inside, decide (least ≤ other.indent) = true :=
    fun other h => decide_eq_true (hin other (mem_of_mem_pastBody h))
  subst hsplit
  refine ⟨(bodyOf_append hends).symm, ?_, ?_⟩
  · rw [pastBody_append hends, List.takeWhile_append_of_pos hpast, takeWhile_eq_nil hout,
      List.append_nil]
  · rw [pastBody_append hends, List.dropWhile_append_of_pos hpast, dropWhile_eq_self hout]

theorem inMenu_outermost : inMenu ⟨body, []⟩ = false := rfl

theorem inMenu_inside :
    inMenu ⟨body, (opener, parent) :: enclosing⟩ = (opener.header == .menu) := rfl

theorem complete_leaf (hr : Ready body enclosing line.indent)
    (h : line.item.header? (inMenu ⟨body, enclosing⟩) = none) :
    complete (note body line.number line.item) enclosing later =
      complete body enclosing (line :: later) := by
  obtain ⟨-, least, hleast, hin⟩ := hr
  cases enclosing with
  | nil =>
    rw [inMenu_outermost] at h
    rw [complete, complete, reverse_entries_note, nest_of_leaf later h, List.append_assoc]
    rfl
  | cons first enclosing =>
    obtain ⟨opener, parent⟩ := first
    rw [inMenu_inside] at h
    obtain ⟨hshare, hrest⟩ := share_cons hleast (hin (List.cons_ne_nil _ _))
    rw [complete, complete, reverse_entries_note, hshare, hrest, nest_of_leaf _ h,
      List.append_assoc]
    rfl

theorem complete_header {header : Header} (hr : Ready body enclosing line.indent)
    (h : line.item.header? (inMenu ⟨body, enclosing⟩) = some header) :
    complete .empty ((⟨line.number, line.indent, header⟩, body) :: enclosing) later =
      complete body enclosing (line :: later) := by
  obtain ⟨-, least, hleast, hin⟩ := hr
  have hentries (entry : Entry) :
      (body.add entry).entries.reverse = body.entries.reverse ++ [entry] := List.reverse_cons
  rw [complete]
  cases enclosing with
  | nil =>
    rw [inMenu_outermost] at h
    rw [complete, complete, hentries, nest_of_header later h, List.append_assoc]
    rfl
  | cons first enclosing =>
    obtain ⟨opener, parent⟩ := first
    rw [inMenu_inside] at h
    have hle := hin (List.cons_ne_nil _ _)
    obtain ⟨hshare, hrest⟩ := share_cons hleast hle
    obtain ⟨hbody, hpast, hleft⟩ := share_past hleast hle
    rw [complete, complete, hshare, hrest, nest_of_header _ h, hbody, hpast, hentries,
      List.append_assoc, ← hleft]
    rfl

theorem complete_place (hr : Ready body enclosing line.indent)
    (hd : draft.enter line.indent = ⟨body, enclosing⟩) :
    let placed := draft.place line.number line.indent line.item
    Ordered placed.body placed.enclosing ∧
      complete placed.body placed.enclosing later = complete body enclosing (line :: later) := by
  cases h : line.item.header? (draft.enter line.indent).inMenu with
  | none =>
    rw [place_of_leaf h]
    rw [hd] at h ⊢
    exact ⟨hr.ordered.of_indent rfl, complete_leaf hr h⟩
  | some header =>
    rw [place_of_header h]
    rw [hd] at h ⊢
    exact ⟨.inside (fun _ h => by cases h) hr.least hr.ordered, complete_header hr h⟩

theorem entries_eq_complete (body : Body) (enclosing : List (Opener × Body)) :
    (⟨body, enclosing⟩ : Draft).entries = complete body enclosing [] := by
  induction enclosing generalizing body with
  | nil => rw [complete, nest_nil, List.append_nil]; rfl
  | cons first enclosing ih =>
    obtain ⟨opener, parent⟩ := first
    have hshare : body.share opener [] = [] := by
      unfold Body.share
      cases body.indent <;> rfl
    have hrest : body.rest opener [] = [] := by
      unfold Body.rest
      cases body.indent <;> rfl
    rw [complete, hshare, hrest, nest_nil, List.append_nil]
    exact ih _

theorem complete_foldl (draft : Draft) (ho : Ordered draft.body draft.enclosing)
    (lines : List Placed) :
    (lines.foldl (fun draft line => draft.place line.number line.indent line.item) draft).entries =
      complete draft.body draft.enclosing lines := by
  induction lines generalizing draft with
  | nil => exact entries_eq_complete _ _
  | cons line later ih =>
    have hclose := @complete_closeWhile draft.body draft.enclosing line later ho
    obtain ⟨hclosed, hends, hcomplete⟩ := hclose
    obtain ⟨hready, htouch⟩ := ready_touch hclosed hends
    obtain ⟨hplaced, hplace⟩ := complete_place hready rfl
    rw [List.foldl_cons, ih _ hplaced, hplace, htouch, hcomplete]

end Draft

def origin : List (Line × Item) → Int64
  | [] => 0
  | (first, _) :: _ => first.indent

def place (origin : Int64) (found : Line × Item) : Placed :=
  ⟨found.1.number, found.1.indent - origin, found.2⟩

theorem outline_eq_nest (items : List (Line × Item)) :
    outline items = nest false none (items.map (place (origin items))) := by
  cases items with
  | nil => simp [outline]
  | cons first later =>
    have h := Draft.complete_foldl .empty .outermost ((first :: later).map (place first.1.indent))
    rw [List.foldl_map] at h
    exact h

end StoryScript.Script
