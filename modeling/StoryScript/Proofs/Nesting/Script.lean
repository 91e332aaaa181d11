import StoryScript.Proofs.Nesting.Tree
import StoryScript.Proofs.Nesting.Width
import StoryScript.Proofs.Quotation

/-! # The nesting of a script

A script that can be read has the entries of its structural lines, each line in the bodies that the
widths of the lines give it. Its commands are those of the entries that no menu drops.
-/

namespace StoryScript.Script

open Entry Text

namespace Line

def adds (line : Line) : Bool :=
  match line.item with
  | .ok item => item.adds
  | .error _ => false

end Line

/-- The entries stand where the widths of the lines put them. -/
structure Outlined (width : Line → Nat) (lines : List Line) (entries : List Entry) : Prop where
  increasing : (lines.map (·.number)).Pairwise (· < ·)
  /-- Each line adds at most one entry, and the entries keep the order of the lines. -/
  ordered : (preorder entries).map (·.line) = (lines.filter (·.adds)).map (·.number)
  header : ∀ line ∈ lines, ∀ header, line.item = .ok (.statement (.header header)) →
    ∃ body, .node line.number header body ∈ preorder entries
  /-- A later line stands in the body of a header exactly if the line after the header is indented
  more than the header and all lines from there on at least as much as that one. -/
  inside : ∀ before opener between line after,
    lines = before ++ opener :: (between ++ line :: after) → line.adds = true →
    ∀ header body, .node opener.number header body ∈ preorder entries →
      (line.number ∈ (preorder body).map (·.line) ↔
        ∃ first ∈ (between ++ [line]).head?, width opener < width first ∧
          ∀ other ∈ between ++ [line], width first ≤ width other)
  /-- A quoted literal with a colon is a choice exactly in a menu. -/
  prompt : ∀ line ∈ lines, ∀ text content rest, line.content = .statement text →
    Quoted.read? text = some (content, rest) → trim rest = [':'] →
    ∀ around entry, Stands entries around entry → entry.line = line.number →
      (around = some .menu → ∃ body, entry = .node line.number (.choice (.ofList content)) body) ∧
      (around ≠ some .menu → entry = .leaf line.number (.dialogue none (.ofList content)))

theorem readItems_eq_ok {lines : List Line} {items : List (Line × Item)}
    (h : readItems lines = .ok items) :
    items.map (·.1) = lines ∧ ∀ found ∈ items, found.1.item = .ok found.2 := by
  induction lines generalizing items with
  | nil =>
    cases h
    exact ⟨rfl, nofun⟩
  | cons line lines ih =>
    rw [readItems] at h
    cases hitem : line.item with
    | error error => simp [hitem] at h
    | ok item =>
      rw [hitem] at h
      cases hlater : readItems lines with
      | error error => simp [hlater, Except.map] at h
      | ok later =>
        rw [hlater] at h
        cases h
        obtain ⟨hlines, hitems⟩ := ih hlater
        refine ⟨by rw [List.map_cons, hlines], ?_⟩
        intro found hfound
        rcases List.mem_cons.1 hfound with rfl | hfound
        · exact hitem
        · exact hitems found hfound

theorem exists_line_of_mem_placed {lines : List Line} {items : List (Line × Item)}
    (h : readItems lines = .ok items) {origin : Int64} {placed : Placed}
    (hplaced : placed ∈ items.map (place origin)) :
    ∃ line ∈ lines, line.item = .ok placed.item := by
  obtain ⟨rfl, hread⟩ := readItems_eq_ok h
  obtain ⟨found, hfound, rfl⟩ := List.mem_map.1 hplaced
  exact ⟨found.1, List.mem_map_of_mem hfound, hread found hfound⟩

theorem readOutline_eq_ok {tabWidth : UInt64} {text : String} {entries : List Entry}
    (h : readOutline tabWidth text = .ok entries) :
    ∃ items, readItems (structural tabWidth text.toList).1 = .ok items ∧
      entries = nest false none (items.map (place (origin items))) := by
  rcases hlines : structural tabWidth text.toList with ⟨lines, unclosed⟩
  simp only [readOutline, hlines] at h
  cases hitems : readItems lines with
  | error error =>
    rw [hitems] at h
    cases h
  | ok items =>
    rw [hitems] at h
    cases unclosed with
    | some block => cases h
    | none =>
      cases h
      exact ⟨items, rfl, outline_eq_nest items⟩

section Alone

variable {tabWidth : UInt64} {s : List Char}

theorem readOutline_of_complete {found : Line} {item : Item} (hlines : lines s = [s])
    (hopen : openLine tabWidth 1 s = .complete found) (hitem : found.item = .ok item) :
    readOutline tabWidth (.ofList s) = .ok (outline [(found, item)]) := by
  simp only [readOutline, String.toList_ofList, structural, hlines, structuralFrom, hopen,
    readItems, hitem]
  rfl

theorem readOutline_of_unfinished {block : OpenBlock} (hlines : lines s = [s])
    (hopen : openLine tabWidth 1 s = .unfinished block) :
    readOutline tabWidth (.ofList s) =
      .error (.unterminatedBlock block.number (.ofList block.opening)) := by
  simp only [readOutline, String.toList_ofList, structural, hlines, structuralFrom, hopen,
    readItems]

end Alone

section Items

variable {tabWidth : UInt64} {text : List Char} {items : List (Line × Item)}

theorem number_filter_place (origin : Int64) (h : ∀ found ∈ items, found.1.item = .ok found.2) :
    ((items.map (place origin)).filter (·.item.adds)).map (·.number) =
      ((items.map (·.1)).filter (·.adds)).map (·.number) := by
  have hadds : items.filter ((·.item.adds) ∘ place origin) = items.filter ((·.adds) ∘ (·.1)) := by
    refine List.filter_congr fun found hfound => ?_
    simp only [Function.comp_apply, Line.adds, h found hfound, place]
  rw [List.filter_map, List.filter_map, hadds, List.map_map, List.map_map]
  rfl

theorem toInt_place (hmem : ∀ found ∈ items, found.1 ∈ (structural tabWidth text).1)
    (hwidth : ∀ line ∈ (structural tabWidth text).1, line.width tabWidth text < 2 ^ 63) :
    ∃ least : Nat, ∀ found ∈ items, (place (origin items) found).indent.toInt =
      found.1.width tabWidth text - least := by
  cases items with
  | nil => exact ⟨0, nofun⟩
  | cons first later =>
    have hfirst := hmem first List.mem_cons_self
    refine ⟨first.1.width tabWidth text, fun found hfound => ?_⟩
    have hline := hmem found hfound
    exact toInt_sub_of_width (toInt_indent_of_mem_structural hline (hwidth _ hline))
      (toInt_indent_of_mem_structural hfirst (hwidth _ hfirst)) (hwidth _ hline) (hwidth _ hfirst)

theorem indented_iff {least : Nat} {opener : Line × Item} {span : List (Line × Item)}
    {origin : Int64} {width : Line → Nat}
    (hopener : (place origin opener).indent.toInt = width opener.1 - least)
    (hspan : ∀ found ∈ span, (place origin found).indent.toInt = width found.1 - least) :
    (∃ first ∈ (span.map (place origin)).head?, (place origin opener).indent < first.indent ∧
        ∀ other ∈ span.map (place origin), first.indent ≤ other.indent) ↔
      ∃ first ∈ (span.map (·.1)).head?, width opener.1 < width first ∧
        ∀ other ∈ span.map (·.1), width first ≤ width other := by
  cases span with
  | nil => simp
  | cons first span =>
    have hfirst := hspan first List.mem_cons_self
    have hlt : (place origin opener).indent < (place origin first).indent ↔
        width opener.1 < width first.1 := by
      rw [Int64.lt_iff_toInt_lt, hopener, hfirst]
      omega
    have hle : ∀ other ∈ first :: span,
        ((place origin first).indent ≤ (place origin other).indent ↔
          width first.1 ≤ width other.1) := by
      intro other hother
      rw [Int64.le_iff_toInt_le, hfirst, hspan other hother]
      omega
    simp only [List.map_cons, List.head?_cons, Option.mem_some_iff, exists_eq_left', hlt]
    rw [← List.map_cons, ← List.map_cons]
    simp only [List.mem_map, forall_exists_index, and_imp, forall_apply_eq_imp_iff₂]
    exact and_congr_right fun _ => forall₂_congr hle

theorem line_of_gives {line : Placed} {inMenu : Bool} {entry : Entry}
    (h : line.Gives inMenu entry) : entry.line = line.number := by
  cases h <;> rfl

theorem eq_of_gives_prompt {line : Placed} {inMenu : Bool} {content : String} {entry : Entry}
    (hitem : line.item = .statement (.prompt content)) (h : line.Gives inMenu entry) :
    (inMenu = true → ∃ body, entry = .node line.number (.choice content) body) ∧
      (inMenu = false → entry = .leaf line.number (.dialogue none content)) := by
  cases h with
  | node hheader =>
    rw [hitem, Item.header?] at hheader
    split at hheader
    · cases hheader
      exact ⟨fun _ => ⟨_, rfl⟩, fun hno => by simp_all⟩
    · cases hheader
  | leaf hnone hleaf =>
    rw [hitem] at hnone hleaf
    cases hleaf
    refine ⟨fun hmenu => ?_, fun _ => rfl⟩
    rw [Item.header?, if_pos hmenu] at hnone
    cases hnone

variable {origin : Int64} {line : Line} {header : Header} {body : List Entry}

theorem header_nest (hread : ∀ found ∈ items, found.1.item = .ok found.2)
    (hline : line ∈ items.map (·.1)) (hheader : line.item = .ok (.statement (.header header))) :
    ∃ body, .node line.number header body ∈
      preorder (nest false none (items.map (place origin))) := by
  obtain ⟨found, hfound, rfl⟩ := List.mem_map.1 hline
  rw [hread found hfound] at hheader
  exact exists_node_of_mem (List.mem_map_of_mem hfound) (Except.ok.inj hheader)

theorem inside_nest {width : Line → Nat} {least : Nat} {before between after : List Line}
    {opener : Line} (hnodup : ((items.map (place origin)).map (·.number)).Nodup)
    (hread : ∀ found ∈ items, found.1.item = .ok found.2)
    (hplace : ∀ found ∈ items, (place origin found).indent.toInt = width found.1 - least)
    (hsplit : items.map (·.1) = before ++ opener :: (between ++ line :: after))
    (hadds : line.adds = true)
    (hnode : .node opener.number header body ∈
      preorder (nest false none (items.map (place origin)))) :
    line.number ∈ (preorder body).map (·.line) ↔
      ∃ first ∈ (between ++ [line]).head?, width opener < width first ∧
        ∀ other ∈ between ++ [line], width first ≤ width other := by
  obtain ⟨earlier, _, rfl, -, hopener⟩ := List.map_eq_append_iff.1 hsplit
  obtain ⟨found, _, rfl, rfl, hspan⟩ := List.map_eq_cons_iff.1 hopener
  obtain ⟨span, _, rfl, rfl, hlast⟩ := List.map_eq_append_iff.1 hspan
  obtain ⟨last, later, rfl, rfl, -⟩ := List.map_eq_cons_iff.1 hlast
  have hlast : last.2.adds = true := by
    rw [Line.adds, hread last (by simp)] at hadds
    exact hadds
  have hplaced : (earlier ++ found :: (span ++ last :: later)).map (place origin) =
      earlier.map (place origin) ++ place origin found ::
        (span.map (place origin) ++ place origin last :: later.map (place origin)) := by
    simp only [List.map_append, List.map_cons]
  have hspan := @indented_iff least found (span ++ [last]) origin width
    (hplace found (by simp)) fun other hother => hplace other (by
      rcases List.mem_append.1 hother with h | h
      · simp [h]
      · simp [List.mem_singleton.1 h])
  rw [List.map_append, List.map_append, List.map_singleton, List.map_singleton] at hspan
  rw [← hspan]
  exact mem_body_iff hnodup hplaced hlast hnode

/-- What a quoted literal with a colon adds, by the header around it. -/
theorem prompt_nest {source content rest : List Char} {around : Option Header} {entry : Entry}
    (hnodup : ((items.map (place origin)).map (·.number)).Nodup)
    (hread : ∀ found ∈ items, found.1.item = .ok found.2) (hline : line ∈ items.map (·.1))
    (hcontent : line.content = .statement source)
    (hquoted : Quoted.read? source = some (content, rest)) (hrest : trim rest = [':'])
    (hstands : Stands (nest false none (items.map (place origin))) around entry)
    (hnumber : entry.line = line.number) :
    (around = some .menu → ∃ body, entry = .node line.number (.choice (.ofList content)) body) ∧
      (around ≠ some .menu → entry = .leaf line.number (.dialogue none (.ofList content))) := by
  obtain ⟨placed, hplaced, hgives⟩ := gives_of_stands hstands
  obtain ⟨found, hfound, rfl⟩ := List.mem_map.1 hplaced
  obtain ⟨same, hsame, rfl⟩ := List.mem_map.1 hline
  have heq : found.1.number = same.1.number := (line_of_gives hgives).symm.trans hnumber
  have hplace : place origin same = place origin found :=
    List.inj_on_of_nodup_map hnodup (List.mem_map_of_mem hsame) hplaced heq.symm
  have hprompt : same.2 = .statement (.prompt (.ofList content)) := by
    have hitem := hread same hsame
    simp only [Line.item, hcontent, Statement.read_prompt hquoted hrest] at hitem
    exact (Except.ok.inj hitem).symm
  rw [← hplace] at hgives
  obtain ⟨hin, hout⟩ := eq_of_gives_prompt hprompt hgives
  exact ⟨fun h => hin (by simp [h]), fun h => hout (by simpa using h)⟩

end Items

theorem outlined_nest {tabWidth : UInt64} {text : List Char} {items : List (Line × Item)}
    (hitems : readItems (structural tabWidth text).1 = .ok items)
    (hwidth : ∀ line ∈ (structural tabWidth text).1, line.width tabWidth text < 2 ^ 63) :
    Outlined (·.width tabWidth text) (structural tabWidth text).1
      (nest false none (items.map (place (origin items)))) := by
  obtain ⟨hlines, hread⟩ := readItems_eq_ok hitems
  have hincreasing := increasing_structural tabWidth text
  obtain ⟨least, hplace⟩ :=
    toInt_place (fun found h => hlines ▸ List.mem_map_of_mem h) hwidth
  have hnodup : ((items.map (place (origin items))).map (·.number)).Nodup := by
    rw [List.map_map]
    rw [← hlines, List.map_map] at hincreasing
    exact hincreasing.imp Nat.ne_of_lt
  refine ⟨hincreasing, ?ordered, ?header, ?inside, ?prompt⟩
  case ordered => rw [line_preorder_nest, number_filter_place _ hread, hlines]
  case header =>
    intro line hline header hheader
    exact header_nest hread (hlines ▸ hline) hheader
  case inside =>
    intro before opener between line after hsplit hadds header body hnode
    exact inside_nest hnodup hread hplace (hlines.trans hsplit) hadds hnode
  case prompt =>
    intro line hline source content rest hcontent hquoted hrest around entry hstands hnumber
    exact prompt_nest hnodup hread (hlines ▸ hline) hcontent hquoted hrest hstands hnumber

/-- The command of an entry without a body has nothing inside it. -/
theorem levels_of_leaf? {line : Line} {item : Item} {last : Option String} {command : Command}
    (h : line.item = .ok item) (hleaf : item.leaf? last = some command) (depth : Nat) :
    command.levels depth = [(depth, command)] := by
  match item with
  | .block speaker text =>
    cases hleaf
    rfl
  | .statement .ignored => cases hleaf
  | .statement (.header _) => cases hleaf
  | .statement (.prompt text) =>
    cases hleaf
    rfl
  | .statement (.simple simple) =>
    cases hleaf
    unfold Line.item at h
    split at h
    · cases h
    · rename_i text _
      have hflat := Statement.isFlat_read text
      split at h
      · rename_i statement hread
        rw [hread] at hflat
        cases h
        exact hflat depth
      · cases h

/-- A script that can be read is nested by the widths of the blanks before its lines. Its commands
are those of its entries in their order and at their depths, without the entries that menus drop. -/
theorem outlined_of_readOutline {tabWidth : UInt64} {text : String} {entries : List Entry}
    (h : readOutline tabWidth text = .ok entries)
    (hwidth : ∀ line ∈ (structural tabWidth text.toList).1,
      line.width tabWidth text.toList < 2 ^ 63) :
    Outlined (·.width tabWidth text.toList) (structural tabWidth text.toList).1 entries ∧
      (visitAll 0 false false entries).map (·.entry) = preorder entries ∧
      ∃ commands, read tabWidth text = .ok commands ∧
        Command.levelsOf 0 commands =
          (kept entries).map fun visit => (visit.depth, visit.entry.head) := by
  obtain ⟨items, hitems, rfl⟩ := readOutline_eq_ok h
  obtain ⟨-, hread⟩ := readItems_eq_ok hitems
  refine ⟨outlined_nest hitems hwidth, entry_visitAll _ _ _ _, _, by rw [read, h]; rfl, ?_⟩
  refine levelsOf_toCommands 0 _ fun number command hleaf depth => ?_
  obtain ⟨around, hstands⟩ := exists_stands_of_mem_preorder hleaf
  obtain ⟨line, hline, hgives⟩ := gives_of_stands hstands
  obtain ⟨found, hfound, rfl⟩ := List.mem_map.1 hline
  cases hgives with
  | leaf _ hcommand => exact levels_of_leaf? (hread found hfound) hcommand depth

def crossing : String :=
  "menu:\n    \"Go\":\n        jump end\n      \"Stay\":\n    $ lost = 1\nlabel end:\n  \"Bye.\""

def crossingEntries : List Entry :=
  [.node 1 .menu [
    .node 2 (.choice "Go") [.leaf 3 (.jump "end")],
    .node 4 (.choice "Stay") [],
    .leaf 5 (.define "lost" "1" none)],
  .node 6 (.label "end") [.leaf 7 (.dialogue none "Bye.")]]

def crossingCommands : List Command :=
  [.menu [⟨"Go", [.jump "end"]⟩, ⟨"Stay", []⟩], .label "end" [.dialogue none "Bye."]]

theorem outlined_crossing :
    readOutline defaultTabWidth crossing = .ok crossingEntries ∧
      Outlined (·.width defaultTabWidth crossing.toList)
        (structural defaultTabWidth crossing.toList).1 crossingEntries ∧
      (visitAll 0 false false crossingEntries).map (·.entry) = preorder crossingEntries ∧
      read defaultTabWidth crossing = .ok crossingCommands ∧
      Command.levelsOf 0 crossingCommands =
        (kept crossingEntries).map (fun visit => (visit.depth, visit.entry.head)) ∧
      Command.levelsOf 0 crossingCommands =
        [(0, .menu []), (1, .strayChoice ⟨"Go", []⟩), (2, .jump "end"),
          (1, .strayChoice ⟨"Stay", []⟩), (0, .label "end" []), (1, .dialogue none "Bye.")] := by
  have hread : readOutline defaultTabWidth crossing = .ok crossingEntries := by rfl
  have hwidth : ∀ line ∈ (structural defaultTabWidth crossing.toList).1,
      line.width defaultTabWidth crossing.toList < 2 ^ 63 := by decide +kernel
  obtain ⟨houtlined, hvisited, commands, hcommands, hlevels⟩ :=
    outlined_of_readOutline hread hwidth
  obtain rfl : commands = crossingCommands := by
    rw [read, hread] at hcommands
    exact (Except.ok.inj hcommands).symm
  exact ⟨hread, houtlined, hvisited, hcommands, hlevels, rfl⟩

end StoryScript.Script
