import Mathlib.Data.List.Dedup
import Mathlib.Data.List.Infix
import StoryScript.Proofs.Text.Span

/-! # Clauses and the words of a text

The words that are no keywords are handed out in their order: to the subject before the first
keyword, and then to the keyword seen last. A keyword that comes again goes on with its clause.
Each word is handed out once, and what a caller is given as one text falls into the same words.
A keyword opens a clause only where it is made of whole spans, so not inside quotes.
-/

namespace StoryScript.Text.Clauses

/-- The keyword seen last among words. -/
def latest? (keywords ws : List (List Char)) : Option (List Char) :=
  (ws.filter keywords.contains).getLast?

/-- A word that is no keyword, with the keyword seen last among the words before it. -/
def tag? (keywords : List (List Char)) (place : List (List Char) × List Char) :
    Option (Option (List Char) × List Char) :=
  if keywords.contains place.2 then none else some (latest? keywords place.1, place.2)

def tagged (keywords ws : List (List Char)) : List (Option (List Char) × List Char) :=
  (ws.inits.zip ws).filterMap (tag? keywords)

/-- The words that are no keywords and before which the keyword given was seen last; before which
none was seen if none is given. -/
def wordsUnder (keywords ws : List (List Char)) (owner : Option (List Char)) :
    List (List Char) :=
  ((tagged keywords ws).filter (·.1 == owner)).map (·.2)

/-- How the words of a text that is divided into spans are handed out to clauses. -/
structure HandsOut (keywords : List (List Char)) (s : List Char) (spans : List Span)
    (clauses : Clauses) : Prop where
  subject : clauses.subject = wordsUnder keywords (words s) none
  /-- A keyword has a clause if it is one of the words. -/
  clause (keyword : List Char) : clauses.clause? keyword =
    if keyword ∈ keywords ∧ keyword ∈ words s then
      some (wordsUnder keywords (words s) (some keyword))
    else none
  /-- Every word that is no keyword is in one place, as often as in the text. -/
  once : (clauses.subject ++
      keywords.dedup.flatMap fun keyword => (clauses.clause? keyword).getD []).Perm
    ((words s).filter (!keywords.contains ·))
  /-- The words in one place can be told from the text that they make up. -/
  legible (owner : Option (List Char)) :
    words (unwords (wordsUnder keywords (words s) owner)) = wordsUnder keywords (words s) owner
  /-- The words that are keywords open stretches, and nothing else does. -/
  opens : clauses.stretches.map (·.1) = (words s).filter keywords.contains
  /-- A keyword that opens a clause is made of spans of the text, so it has its quotes with it. -/
  whole : ∀ keyword ∈ keywords, ∀ group ∈ spans.splitOnP Span.isGap,
    Span.texts group = keyword → DividesInto keyword group
  /-- A keyword without quotes opens a clause outside quotes only. -/
  outside : ∀ keyword ∈ keywords, (∀ c ∈ keyword, Quoted.isQuote c = false) →
    ∀ group ∈ spans.splitOnP Span.isGap, Span.texts group = keyword → group = keyword.map .plain

variable {keywords ws before : List (List Char)} {word : List Char}

theorem latest?_concat : latest? keywords (before ++ [word]) =
    if word ∈ keywords then some word else latest? keywords before := by
  by_cases h : word ∈ keywords <;> simp [latest?, List.filter_append, h]

def withOwners (first : Option (List Char)) (clauses : Clauses) :
    List (Option (List Char) × List Char) :=
  clauses.subject.map (first, ·) ++
    clauses.stretches.flatMap fun stretch => stretch.2.map (some stretch.1, ·)

theorem filterMap_tag? (keywords ws before : List (List Char)) :
    ((ws.inits.map (before ++ ·)).zip ws).filterMap (tag? keywords) =
      withOwners (latest? keywords before) (ofWords keywords ws) := by
  induction ws generalizing before with
  | nil => rfl
  | cons word ws ih =>
    -- For the later words, this one is among those before them.
    have hlater := ih (before ++ [word])
    rw [latest?_concat] at hlater
    rw [List.inits_cons, List.map_cons, List.map_map, List.zip_cons_cons, List.filterMap_cons]
    have hmap : ws.inits.map ((before ++ ·) ∘ fun t => word :: t) =
        ws.inits.map ((before ++ [word]) ++ ·) := by simp [Function.comp_def]
    rw [hmap, hlater]
    by_cases h : word ∈ keywords
    · simp [tag?, ofWords, h, withOwners]
    · simp [tag?, ofWords, h, withOwners]

theorem tagged_eq : tagged keywords ws = withOwners none (ofWords keywords ws) := by
  have h := filterMap_tag? keywords ws []
  simpa [tagged, latest?] using h

/-! ## What is handed out -/

theorem subject_ofWords : (ofWords keywords ws).subject = wordsUnder keywords ws none := by
  simp [wordsUnder, tagged_eq, withOwners, List.filter_map, List.filter_flatMap,
    Function.comp_def]

theorem flatMap_stretches (keyword : List Char) :
    ((ofWords keywords ws).stretches.filter (·.1 == keyword)).flatMap (·.2) =
      wordsUnder keywords ws (some keyword) := by
  have hsubject : ((ofWords keywords ws).subject.map (Prod.mk none)).filter
      (·.1 == some keyword) = [] := by simp
  rw [wordsUnder, tagged_eq, withOwners, List.filter_append, hsubject, List.nil_append]
  induction (ofWords keywords ws).stretches with
  | nil => rfl
  | cons stretch stretches ih =>
    rw [List.flatMap_cons, List.filter_append, List.map_append, ← ih]
    by_cases h : stretch.1 = keyword
    · simp [h, List.filter_map, Function.comp_def]
    · simp [h, List.filter_map, Function.comp_def]

theorem keywords_ofWords :
    (ofWords keywords ws).stretches.map (·.1) = ws.filter keywords.contains := by
  induction ws with
  | nil => rfl
  | cons word ws ih =>
    by_cases h : word ∈ keywords
    · simp [ofWords, h, ih]
    · simp [ofWords, h, ih]

theorem clause?_ofWords (keyword : List Char) : (ofWords keywords ws).clause? keyword =
    if keyword ∈ keywords ∧ keyword ∈ ws then some (wordsUnder keywords ws (some keyword))
    else none := by
  have hopens : keyword ∈ (ofWords keywords ws).stretches.map (·.1) ↔
      keyword ∈ keywords ∧ keyword ∈ ws := by
    rw [keywords_ofWords, List.mem_filter, List.contains_iff_mem, and_comm]
  rw [← flatMap_stretches, clause?]
  split
  · rename_i hnone
    rw [if_neg]
    rw [← hopens, List.mem_map]
    rintro ⟨stretch, hstretch, rfl⟩
    exact List.filter_eq_nil_iff.1 hnone stretch hstretch (beq_self_eq_true _)
  · rename_i hsome
    rw [if_pos]
    obtain ⟨stretch, hstretch⟩ := List.exists_mem_of_ne_nil _ hsome
    obtain ⟨hmem, heq⟩ := List.mem_filter.1 hstretch
    exact hopens.1 (List.mem_map.2 ⟨stretch, hmem, beq_iff_eq.1 heq⟩)

theorem getD_clause?_ofWords (keyword : List Char) :
    ((ofWords keywords ws).clause? keyword).getD [] = wordsUnder keywords ws (some keyword) := by
  rw [← flatMap_stretches, clause?]
  split
  · rename_i hnone
    rw [hnone]
    rfl
  · rfl

theorem map_tagged : (tagged keywords ws).map (·.2) = ws.filter (!keywords.contains ·) := by
  rw [tagged_eq, withOwners]
  induction ws with
  | nil => rfl
  | cons word ws ih =>
    by_cases h : word ∈ keywords
    · simpa [ofWords, h, Function.comp_def] using ih
    · simpa [ofWords, h, Function.comp_def] using ih

theorem owner_of_mem_tagged {owner : Option (List Char)} (h : (owner, word) ∈ tagged keywords ws) :
    owner ∈ none :: keywords.dedup.map some := by
  obtain ⟨⟨before, next⟩, -, htag⟩ := List.mem_filterMap.1 h
  rw [tag?] at htag
  split at htag
  · cases htag
  · obtain ⟨rfl, rfl⟩ := Prod.mk.inj (Option.some.inj htag)
    cases howner : latest? keywords before with
    | none => exact List.mem_cons_self
    | some keyword =>
      have hmem := List.mem_of_getLast? howner
      rw [List.mem_filter, List.contains_iff_mem] at hmem
      simpa using hmem.2

theorem perm_flatMap_filter {α β : Type} [BEq α] [LawfulBEq α] {owners : List α}
    {items : List (α × β)} (hnodup : owners.Nodup)
    (h : ∀ item ∈ items, item.1 ∈ owners) :
    (owners.flatMap fun owner => items.filter (·.1 == owner)).Perm items := by
  induction owners generalizing items with
  | nil =>
    cases items with
    | nil => exact .nil
    | cons item items => cases h item List.mem_cons_self
  | cons owner owners ih =>
    obtain ⟨howner, hnodup⟩ := List.nodup_cons.1 hnodup
    have hlater : ∀ item ∈ items.filter (!·.1 == owner), item.1 ∈ owners := by
      intro item hitem
      obtain ⟨hitem, hne⟩ := List.mem_filter.1 hitem
      exact (List.mem_cons.1 (h item hitem)).resolve_left (by simpa using hne)
    have hothers := ih hnodup hlater
    have hsame : (owners.flatMap fun other =>
        (items.filter (!·.1 == owner)).filter (·.1 == other)) =
          owners.flatMap fun other => items.filter (·.1 == other) := by
      refine List.flatMap_congr fun other hother => ?_
      rw [List.filter_filter]
      refine List.filter_congr fun item _ => ?_
      by_cases heq : item.1 = other
      · have hne : other ≠ owner := fun hsame => howner (hsame ▸ hother)
        simp [heq, hne]
      · simp [heq]
    rw [hsame] at hothers
    rw [List.flatMap_cons]
    exact (hothers.append_left _).trans (List.filter_append_perm _ items)

theorem perm_ofWords : ((ofWords keywords ws).subject ++ keywords.dedup.flatMap fun keyword =>
    ((ofWords keywords ws).clause? keyword).getD []).Perm (ws.filter (!keywords.contains ·)) := by
  have hnodup : (none :: keywords.dedup.map some).Nodup := by
    refine List.nodup_cons.2 ⟨by simp, ?_⟩
    exact (List.nodup_dedup keywords).map fun _ _ => Option.some.inj
  have howners : ∀ item ∈ tagged keywords ws, item.1 ∈ none :: keywords.dedup.map some :=
    fun _ => owner_of_mem_tagged
  have hwords := (perm_flatMap_filter hnodup howners).map (·.2)
  rw [map_tagged, List.flatMap_cons, List.map_append, List.map_flatMap, List.flatMap_map] at hwords
  simp only [getD_clause?_ofWords, subject_ofWords]
  exact hwords

theorem wordsUnder_sublist (owner : Option (List Char)) :
    (wordsUnder keywords ws owner).Sublist ws := by
  have h : ((tagged keywords ws).filter (·.1 == owner)).Sublist (tagged keywords ws) :=
    List.filter_sublist
  have hwords := h.map (·.2)
  rw [map_tagged] at hwords
  exact hwords.trans List.filter_sublist

/-! ## Clauses of a text -/

/-- Every text has one division into spans, its words are what stands between the gaps of it, they
are taken apart again after they have been joined, and clauses hand them out. -/
theorem handsOut_read (s : List Char) :
    ∃ spans, (∀ other, DividesInto s other ↔ other = spans) ∧
      words s = wordsBetween (spans.splitOnP Span.isGap) ∧
      (words s).flatten = Span.texts (spans.filter (!·.isGap)) ∧
      words (unwords (words s)) = words s ∧
      ∀ keywords, HandsOut keywords s spans (read keywords s) := by
  obtain ⟨spans, hspans⟩ := exists_dividesInto s
  refine ⟨spans, fun other => hspans.iff_eq, hspans.words_eq, hspans.flatten_words,
    words_unwords_of_sublist (List.Sublist.refl _), fun keywords => ?_⟩
  have hwhole : ∀ group ∈ spans.splitOnP Span.isGap, DividesInto (Span.texts group) group :=
    fun group hgroup => (hspans.of_mem_splitOnP hgroup).1
  exact {
    subject := subject_ofWords
    clause := clause?_ofWords
    once := perm_ofWords
    legible := fun owner => words_unwords_of_sublist (wordsUnder_sublist owner)
    opens := keywords_ofWords
    whole := by
      rintro _ - group hgroup rfl
      exact hwhole group hgroup
    outside := by
      rintro _ - hplain group hgroup rfl
      exact (hwhole group hgroup).eq_map_plain hplain }

/-- A keyword between quotes stays with the subject, and a repeated one goes on with its clause. -/
example :
    let clauses := read ["at".toList, "with".toList] "a 'with' b at c with d at 'e f".toList
    clauses.subject = ["a".toList, "'with'".toList, "b".toList] ∧
      clauses.clause? "at".toList = some ["c".toList, "'e f".toList] ∧
      clauses.clause? "with".toList = some ["d".toList] := by
  decide +kernel

end StoryScript.Text.Clauses
