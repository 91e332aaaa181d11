import StoryScript.Proofs.Json.Entries
import StoryScript.Proofs.Json.Reread
import StoryScript.Proofs.Json.Text

/-! # Documents read back

A document that has been written is read again as long as arrays and objects are not nested too
deeply. A reader that does not go deep enough finds it unreadable, or not well formed.
-/

namespace StoryScript

namespace Json

open Numeral

variable {style : Style} {level fuel depth : Nat} {document : Json} {rest : List Char}

def writeMember (style : Style) (level : Nat) (member : String × Json) (rest : List Char) :
    List Char :=
  writeText member.1 (style.colon ++ write style level member.2 rest)

theorem writeItems_eq (items : List Json) :
    writeItems style level items rest =
      writeEntries style level ']' (write style (level + 1)) rest items := by
  induction items with
  | nil => rfl
  | cons item items ih => rw [writeItems, ih, writeEntries]

theorem writeMembers_eq (members : List (String × Json)) :
    writeMembers style level members rest =
      writeEntries style level '\x7d' (writeMember style (level + 1)) rest members := by
  induction members with
  | nil => rfl
  | cons member members ih => rw [writeMembers, ih, writeEntries, writeMember]

/-! ## Scalars -/

theorem readValue?_of_ne {c : Char} {s : List Char} (harray : c ≠ '[') (hobject : c ≠ '\x7b') :
    readValue? fuel depth (c :: s) = readScalar? fuel (c :: s) := by
  cases depth <;> simp [readValue?, harray, hobject]

theorem readScalar?_of_starts {c : Char} {s : List Char} (h : c = '-' ∨ c.isDigit = true) :
    readScalar? fuel (c :: s) = readNumber? (c :: s) := by
  unfold readScalar?
  split
  case h_5 => rfl
  all_goals
    rename_i heq
    cases heq
    exact absurd h (by decide)

theorem IsNumeral.readScalar? {text : List Char} (h : IsNumeral text) (hrest : ¬ Continues rest) :
    readScalar? fuel (text ++ rest) = some (ofNumeral text, rest) := by
  obtain ⟨c, s, rfl, hc⟩ := h.starts
  rw [← h.read rest hrest]
  exact readScalar?_of_starts hc

/-- A document without arrays and objects is read as one scalar. -/
theorem readScalar?_write (h : document.depth = 0) (hrest : ¬ Continues rest)
    (hfuel : (write style level document rest).length ≤ fuel) :
    readScalar? fuel (write style level document rest) = some (document.reread, rest) := by
  cases document with
  | null => rfl
  | unreadable => rfl
  | bool b => cases b <;> rfl
  | integer n => exact (isNumeral_writeInteger n).readScalar? hrest
  | number x =>
    rw [write, reread]
    cases hx : x.document? with
    | none => rfl
    | some text => exact (Number.isNumeral_document? hx).readScalar? hrest
  | text s =>
    rw [write] at hfuel ⊢
    change (readText? fuel _).map _ = _
    rw [readText?_writeText hfuel]
    rfl
  | array items => cases h
  | object members => cases h

def beginsScalar (c : Char) : Bool :=
  c ∈ ['n', 't', 'f', '"', '-'] || c.isDigit

theorem ne_of_beginsScalar {c d : Char} (h : beginsScalar c = true) (hd : beginsScalar d = false) :
    c ≠ d := by
  rintro rfl
  rw [h] at hd
  cases hd

theorem IsNumeral.exists_eq_cons {text : List Char} (h : IsNumeral text) :
    ∃ c s, text = c :: s ∧ beginsScalar c = true := by
  obtain ⟨c, s, rfl, hc⟩ := h.starts
  refine ⟨c, s, rfl, ?_⟩
  rcases hc with rfl | hc
  · rfl
  · rw [beginsScalar, hc, Bool.or_true]

theorem exists_write_eq_cons (h : document.depth = 0) (rest : List Char) :
    ∃ c s, write style level document rest = c :: (s ++ rest) ∧ beginsScalar c = true := by
  cases document with
  | null => exact ⟨'n', ['u', 'l', 'l'], rfl, rfl⟩
  | unreadable => exact ⟨'n', ['u', 'l', 'l'], rfl, rfl⟩
  | bool b =>
    cases b
    · exact ⟨'f', ['a', 'l', 's', 'e'], rfl, rfl⟩
    · exact ⟨'t', ['r', 'u', 'e'], rfl, rfl⟩
  | integer n =>
    obtain ⟨c, s, htext, hc⟩ := (isNumeral_writeInteger n).exists_eq_cons
    exact ⟨c, s, by rw [write, htext, List.cons_append], hc⟩
  | number x =>
    rw [write]
    cases hx : x.document? with
    | none => exact ⟨'n', ['u', 'l', 'l'], rfl, rfl⟩
    | some text =>
      obtain ⟨c, s, rfl, hc⟩ := (Number.isNumeral_document? hx).exists_eq_cons
      exact ⟨c, s, rfl, hc⟩
  | text s =>
    refine ⟨'"', s.toList.flatMap writeChar ++ ['"'], ?_, rfl⟩
    rw [write, writeText, List.append_assoc, List.singleton_append]
  | array items => cases h
  | object members => cases h

theorem starts_of_scalar (h : document.depth = 0) (rest : List Char) :
    Starts ']' (write style level document rest) := by
  obtain ⟨c, s, hs, hc⟩ := exists_write_eq_cons h rest
  rw [hs]
  refine ⟨c, _, rfl, ne_of_beginsScalar hc rfl, List.dropWhile_cons_of_neg ?_⟩
  simp only [Bool.or_eq_true, beq_iff_eq, not_or]
  exact ⟨⟨⟨ne_of_beginsScalar hc rfl, ne_of_beginsScalar hc rfl⟩, ne_of_beginsScalar hc rfl⟩,
    ne_of_beginsScalar hc rfl⟩

theorem starts_write (document : Json) (rest : List Char) :
    Starts ']' (write style level document rest) := by
  cases document with
  | array items => cases items <;> exact ⟨_, _, rfl, by decide, rfl⟩
  | object members => cases members <;> exact ⟨_, _, rfl, by decide, rfl⟩
  | _ => exact starts_of_scalar rfl rest

theorem length_lt_of_scalar (h : document.depth = 0) (rest : List Char) :
    rest.length < (write style level document rest).length := by
  obtain ⟨c, s, hs, -⟩ := exists_write_eq_cons h rest
  rw [hs, List.length_cons, List.length_append]
  omega

mutual

theorem length_lt_write (document : Json) (level : Nat) (rest : List Char) :
    rest.length < (write style level document rest).length := by
  match document with
  | .null | .unreadable | .bool _ | .integer _ | .number _ | .text _ =>
    exact length_lt_of_scalar rfl rest
  | .array [] =>
    rw [write, List.length_cons, List.length_cons]
    omega
  | .array (item :: items) =>
    have hitem := length_lt_write item (level + 1) (writeItems style level items rest)
    have hitems := length_lt_writeItems items level rest
    rw [write, List.length_cons, List.length_append]
    omega
  | .object [] =>
    rw [write, List.length_cons, List.length_cons]
    omega
  | .object ((key, value) :: members) =>
    have hvalue := length_lt_write value (level + 1) (writeMembers style level members rest)
    have hmembers := length_lt_writeMembers members level rest
    rw [write, List.length_cons, List.length_append, writeText]
    simp only [List.length_cons, List.length_append]
    omega

theorem length_lt_writeItems (items : List Json) (level : Nat) (rest : List Char) :
    rest.length < (writeItems style level items rest).length := by
  match items with
  | [] =>
    rw [writeItems, List.length_append, List.length_cons]
    omega
  | item :: items =>
    have hitem := length_lt_write item (level + 1) (writeItems style level items rest)
    have hitems := length_lt_writeItems items level rest
    rw [writeItems, List.length_cons, List.length_append]
    omega

theorem length_lt_writeMembers (members : List (String × Json)) (level : Nat) (rest : List Char) :
    rest.length < (writeMembers style level members rest).length := by
  match members with
  | [] =>
    rw [writeMembers, List.length_append, List.length_cons]
    omega
  | (key, value) :: members =>
    have hvalue := length_lt_write value (level + 1) (writeMembers style level members rest)
    have hmembers := length_lt_writeMembers members level rest
    rw [writeMembers, List.length_cons, List.length_append, writeText]
    simp only [List.length_cons, List.length_append]
    omega

end

theorem isEntry_write (style : Style) (level : Nat) : IsEntry ']' (write style level) where
  closer := .inl rfl
  starts := starts_write
  longer document rest := length_lt_write document level rest

theorem length_write_le_writeMember (member : String × Json) :
    (write style level member.2 rest).length ≤ (writeMember style level member rest).length := by
  rw [writeMember, writeText, List.length_cons, List.length_append, List.length_cons,
    List.length_append]
  omega

theorem isEntry_writeMember (style : Style) (level : Nat) :
    IsEntry '\x7d' (writeMember style level) where
  closer := .inr rfl
  starts _ _ := ⟨_, _, rfl, by decide, rfl⟩
  longer member rest :=
    Nat.lt_of_lt_of_le (length_lt_write member.2 level rest) (length_write_le_writeMember member)

/-! ## Arrays and objects -/

theorem write_array (item : Json) (items : List Json) :
    write style level (.array (item :: items)) rest =
      '[' :: (style.newline (level + 1) ++ write style (level + 1) item
        (writeEntries style level ']' (write style (level + 1)) rest items)) := by
  rw [write, writeItems_eq]

theorem write_object (member : String × Json) (members : List (String × Json)) :
    write style level (.object (member :: members)) rest =
      '\x7b' :: (style.newline (level + 1) ++ writeMember style (level + 1) member
        (writeEntries style level '\x7d' (writeMember style (level + 1)) rest members)) := by
  rw [write, writeMembers_eq, writeMember]

/-- A written document is found in a text, if it is no deeper than the reader goes. -/
def Reads (style : Style) (fuel depth : Nat) (document : Json) : Prop :=
  ∀ level rest, ¬ Continues rest → (write style level document rest).length ≤ fuel →
    readValue? fuel depth (write style level document rest) = some (document.reread, rest)

theorem reads_of_scalar (h : document.depth = 0) : Reads style fuel depth document := by
  intro level rest hrest hfuel
  obtain ⟨c, s, hs, hc⟩ := @exists_write_eq_cons style level document h rest
  rw [← readScalar?_write h hrest hfuel, hs]
  exact readValue?_of_ne (ne_of_beginsScalar hc rfl) (ne_of_beginsScalar hc rfl)

theorem skipBlanks_colon (style : Style) (s : List Char) :
    ∃ t, skipBlanks (style.colon ++ s) = ':' :: t ∧ skipBlanks t = skipBlanks s := by
  cases style <;> exact ⟨_, rfl, rfl⟩

theorem readMember?_writeMember {member : String × Json}
    (hfuel : (writeMember style level member rest).length ≤ fuel) :
    readMember? fuel (readValue? fuel depth) (writeMember style level member rest) =
      (readValue? fuel depth (write style level member.2 rest)).map fun (value, rest) =>
        ((some member.1, value), rest) := by
  rw [writeMember] at hfuel
  obtain ⟨t, hcolon, hvalue⟩ := skipBlanks_colon style (write style level member.2 rest)
  rw [writeMember, writeText, readMember?, readText?_writeText hfuel]
  simp only [hcolon, hvalue, (starts_write member.2 rest).skipBlanks]

theorem readMember?_of_reads {member : String × Json} (h : Reads style fuel depth member.2)
    (hrest : ¬ Continues rest) (hfuel : (writeMember style level member rest).length ≤ fuel) :
    readMember? fuel (readValue? fuel depth) (writeMember style level member rest) =
      some ((some member.1, member.2.reread), rest) := by
  rw [readMember?_writeMember hfuel,
    h level rest hrest (Nat.le_trans (length_write_le_writeMember member) hfuel)]
  rfl

theorem ofMembers_map (members : List (String × Json)) :
    ofMembers (members.map fun member => (some member.1, member.2.reread)) =
      .object (rereadMembers members) := by
  have hkeys : (members.map fun member => (some member.1, member.2.reread)).mapM
      (fun member => member.1.map (·, member.2)) = some (rereadMembers members) := by
    rw [mapM_eq_some_iff, rereadMembers_eq_map, List.map_map, List.map_map]
    rfl
  rw [ofMembers]
  split
  · rename_i found hfound
    cases hfound.symm.trans hkeys
    rfl
  · rename_i hnone
    cases hnone.symm.trans hkeys

theorem reads_of_depth_le (h : document.depth ≤ depth) : Reads style fuel depth document := by
  induction depth generalizing document with
  | zero => exact reads_of_scalar (Nat.le_zero.1 h)
  | succ depth ih =>
    cases document with
    | array items =>
      have hitems := depthOfItems_le.1 (Nat.le_of_succ_le_succ h)
      intro level rest hrest hfuel
      cases items with
      | nil => rfl
      | cons item items =>
        rw [write_array, List.length_cons, List.length_append] at hfuel
        rw [write_array, readValue?, readItems?_writeEntries reread (isEntry_write ..)
          (fun e he => ih (hitems e he) (level + 1)) (by omega), reread, rereadItems_eq_map]
        rfl
    | object members =>
      have hmembers := depthOfMembers_le.1 (Nat.le_of_succ_le_succ h)
      intro level rest hrest hfuel
      cases members with
      | nil => rfl
      | cons member members =>
        rw [write_object, List.length_cons, List.length_append] at hfuel
        rw [write_object, readValue?, readItems?_writeEntries
          (fun member => (some member.1, member.2.reread)) (isEntry_writeMember ..)
          (fun e he rest hrest hfuel => readMember?_of_reads (ih (hmembers e he)) hrest hfuel)
          (by omega), Option.map_some, reread, ← ofMembers_map]
    | _ => exact reads_of_scalar rfl

/-! ## Too deep documents -/

theorem isReadable_array {items : List Json} {item : Json} (hitem : item ∈ items)
    (h : item.isReadable = false) : (array items).isReadable = false := by
  rw [isReadable, ← Bool.not_eq_true, areReadable_iff]
  intro hall
  rw [hall item hitem] at h
  cases h

theorem isReadable_ofMembers {members : List (Option String × Json)}
    {member : Option String × Json} (hmember : member ∈ members)
    (h : member.2.isReadable = false) : (ofMembers members).isReadable = false := by
  rw [ofMembers]
  split
  · rename_i found hfound
    have hmap := mapM_eq_some_iff.1 hfound
    obtain ⟨entry, hentry, hkey⟩ := List.mem_map.1 (hmap ▸ List.mem_map_of_mem hmember)
    obtain ⟨key, -, rfl⟩ := Option.map_eq_some_iff.1 hkey.symm
    rw [isReadable, ← Bool.not_eq_true, haveReadable_iff]
    intro hall
    rw [hall _ hentry] at h
    cases h
  · rfl

theorem isReadable_of_skipped {c : Char} {s later : List Char} {found : Json}
    (hc : c = '[' ∨ c = '\x7b') (h : readValue? fuel 0 (c :: s) = some (found, later)) :
    found.isReadable = false := by
  rcases hc with rfl | rfl
  · obtain ⟨_, -, heq⟩ := Option.map_eq_some_iff.1 h
    cases heq
    rfl
  · obtain ⟨_, -, heq⟩ := Option.map_eq_some_iff.1 h
    cases heq
    rfl

/-- A document that is nested more deeply than a reader goes is unreadable to it. -/
theorem isReadable_of_depth_lt (h : depth < document.depth)
    (hfuel : (write style level document rest).length ≤ fuel) {found : Json} {later : List Char}
    (hread : readValue? fuel depth (write style level document rest) = some (found, later)) :
    found.isReadable = false := by
  induction depth generalizing document level rest found later with
  | zero =>
    cases document with
    | array items =>
      cases items <;> exact isReadable_of_skipped (.inl rfl) hread
    | object members =>
      cases members <;> exact isReadable_of_skipped (.inr rfl) hread
    | _ => cases h
  | succ depth ih =>
    cases document with
    | array items =>
      have hdeep := lt_depthOfItems.1 (Nat.lt_of_succ_lt_succ h)
      cases items with
      | nil =>
        obtain ⟨_, hitem, -⟩ := hdeep
        cases hitem
      | cons item items =>
        rw [write_array, List.length_cons, List.length_append] at hfuel
        rw [write_array, readValue?] at hread
        obtain ⟨⟨items', _⟩, hitems, heq⟩ := Option.map_eq_some_iff.1 hread
        cases heq
        obtain ⟨a, ha, hunreadable⟩ := exists_mem_of_readItems?_writeEntries reread
          (depth < ·.depth) (·.isReadable = false) (isEntry_write ..)
          (fun e _ hflat => reads_of_depth_le (Nat.not_lt.1 hflat) (level + 1))
          (fun e _ hdeep rest a later hfuel => ih hdeep hfuel) hdeep (by omega) hitems
        exact isReadable_array ha hunreadable
    | object members =>
      have hdeep := lt_depthOfMembers.1 (Nat.lt_of_succ_lt_succ h)
      cases members with
      | nil =>
        obtain ⟨_, hmember, -⟩ := hdeep
        cases hmember
      | cons member members =>
        rw [write_object, List.length_cons, List.length_append] at hfuel
        rw [write_object, readValue?] at hread
        obtain ⟨⟨members', _⟩, hmembers, heq⟩ := Option.map_eq_some_iff.1 hread
        cases heq
        obtain ⟨a, ha, hunreadable⟩ := exists_mem_of_readItems?_writeEntries
          (fun member => (some member.1, member.2.reread)) (depth < ·.2.depth)
          (·.2.isReadable = false) (isEntry_writeMember ..)
          (fun e _ hflat rest hrest hfuel =>
            readMember?_of_reads (reads_of_depth_le (Nat.not_lt.1 hflat)) hrest hfuel)
          (fun e _ hdeep rest a later hfuel hread => by
            rw [readMember?_writeMember hfuel] at hread
            obtain ⟨⟨value, _⟩, hvalue, heq⟩ := Option.map_eq_some_iff.1 hread
            cases heq
            exact ih hdeep (Nat.le_trans (length_write_le_writeMember e) hfuel) hvalue)
          hdeep (by omega) hmembers
        exact isReadable_ofMembers ha hunreadable
    | _ => cases h

/-! ## Whole documents -/

theorem parse?_write (style : Style) {document : Json} (h : document.depth ≤ depthLimit) :
    parse? (write style 0 document []) = some document.reread := by
  rw [parse?, (starts_write document []).skipBlanks,
    reads_of_depth_le h 0 [] not_continues_nil (Nat.le_refl _)]
  rfl

theorem read?_write (style : Style) (document : Json) :
    read? (write style 0 document []) =
      if document.depth ≤ depthLimit ∧ document.reread.isReadable = true then some document.reread
      else none := by
  by_cases h : document.depth ≤ depthLimit
  · rw [read?, parse?_write style h, Option.filter_some]
    simp only [h, true_and]
  · rw [if_neg fun hread => h hread.1, read?, parse?, (starts_write document []).skipBlanks]
    split
    · rename_i found later hread
      split
      · rw [Option.filter_some,
          isReadable_of_depth_lt (Nat.not_le.1 h) (Nat.le_refl _) hread]
        rfl
      · rfl
    · rfl

end Json

end StoryScript
