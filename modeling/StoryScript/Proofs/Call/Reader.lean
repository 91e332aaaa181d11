import StoryScript.Call.Reader
import StoryScript.Proofs.Call.Grammar

/-! # Calls are read by their grammar

The reader of calls returns a call exactly if the grammar derives it from the text.

What the reader returns is derived, by induction on the fuel for arguments. What is derived is
read, by induction on the derivation: a derivation need not take the blanks after a symbol, so
the texts after a part agree only up to blanks, and a part is read only where something that can
follow it does.
-/

namespace StoryScript

theorem exists_of_map_eq_ok {α β ε : Type} {found : Except ε α} {f : α → β} {b : β}
    (h : found.map f = .ok b) : ∃ a, found = .ok a ∧ f a = b := by
  cases found with
  | error fault => cases h
  | ok a => exact ⟨a, rfl, Except.ok.inj h⟩

theorem eq_error_of_map_eq_error {α β ε : Type} {found : Except ε α} {f : α → β} {fault : ε}
    (h : found.map f = .error fault) : found = .error fault := by
  cases found with
  | error reason => exact congrArg Except.error (Except.error.inj h)
  | ok a => cases h

namespace Call

open Text

variable {symbol : Char} {s rest : List Char}

section Symbols

theorem skipBlanks_eq_dropWhile (s : List Char) : skipBlanks s = s.dropWhile (· ∈ spaces) := by
  refine congrArg (s.dropWhile ·) (funext fun c => ?_)
  simp [spaces, Bool.decide_or, Bool.or_assoc, beq_eq_decide]

theorem skipBlanks_append {blanks : List Char} (h : ∀ c ∈ blanks, c ∈ spaces) :
    skipBlanks (blanks ++ s) = skipBlanks s := by
  rw [skipBlanks_eq_dropWhile, skipBlanks_eq_dropWhile]
  exact List.dropWhile_append_of_pos fun c hc => decide_eq_true (h c hc)

theorem skipBlanks_cons {c : Char} (h : c ∉ spaces) : skipBlanks (c :: s) = c :: s := by
  rw [skipBlanks_eq_dropWhile]
  exact List.dropWhile_cons_of_neg (by simpa using h)

theorem exists_blanks (s : List Char) :
    ∃ blanks, (∀ c ∈ blanks, c ∈ spaces) ∧ blanks ++ skipBlanks s = s := by
  refine ⟨s.takeWhile (· ∈ spaces), fun c hc => ?_, ?_⟩
  · exact of_decide_eq_true (List.all_eq_true.1 List.all_takeWhile c hc)
  · rw [skipBlanks_eq_dropWhile, List.takeWhile_append_dropWhile]

theorem symbol_of_afterSymbol? (h : afterSymbol? symbol s = some rest) : Symbol symbol s rest := by
  obtain ⟨before, hbefore, hs⟩ := exists_blanks s
  rw [afterSymbol?] at h
  split at h
  · cases h
  · rename_i c text hskip
    split at h
    · rename_i hc
      subst hc
      obtain ⟨after, hafter, htext⟩ := exists_blanks text
      have hsymbol : Symbol c (before ++ c :: (after ++ skipBlanks text))
          (skipBlanks text) := .mk hbefore hafter
      cases h
      rwa [htext, ← hskip, hs] at hsymbol
    · cases h

theorem Symbol.exists_skipBlanks (h : Symbol symbol s rest) (hsymbol : symbol ∉ spaces) :
    ∃ after, skipBlanks s = symbol :: after ∧ skipBlanks after = skipBlanks rest := by
  obtain ⟨hbefore, hafter⟩ := h
  exact ⟨_, by rw [skipBlanks_append hbefore, skipBlanks_cons hsymbol], skipBlanks_append hafter⟩

theorem Symbol.afterSymbol?_eq (h : Symbol symbol s rest) (hsymbol : symbol ∉ spaces) :
    afterSymbol? symbol s = some (skipBlanks rest) := by
  obtain ⟨after, hskip, hafter⟩ := h.exists_skipBlanks hsymbol
  rw [afterSymbol?, hskip, ← hafter]
  exact if_pos rfl

theorem Symbol.afterSymbol?_eq_none {other : Char} (h : Symbol symbol s rest)
    (hsymbol : symbol ∉ spaces) (hne : symbol ≠ other) : afterSymbol? other s = none := by
  obtain ⟨after, hskip, -⟩ := h.exists_skipBlanks hsymbol
  rw [afterSymbol?, hskip]
  exact if_neg hne

theorem afterSymbol?_congr {t : List Char} (h : skipBlanks s = skipBlanks t) :
    afterSymbol? symbol s = afterSymbol? symbol t := by
  rw [afterSymbol?, h, afterSymbol?]

theorem skipBlanks_skipBlanks (s : List Char) : skipBlanks (skipBlanks s) = skipBlanks s := by
  obtain ⟨blanks, hblanks, hs⟩ := exists_blanks s
  rw [← skipBlanks_append hblanks, hs]

theorem length_skipBlanks_le (s : List Char) : (skipBlanks s).length ≤ s.length :=
  (List.dropWhile_suffix _).length_le

end Symbols

section Names

variable {name : List Char}

theorem name_of_readName? (h : readName? s = some (name, rest)) : Name s name rest := by
  cases s with
  | nil => cases h
  | cons first s =>
    rw [readName?] at h
    split at h
    · rename_i hfirst
      split at h
      rename_i more after hspan
      obtain ⟨rfl, hmore, hends⟩ := span_eq_iff.1 hspan
      cases h
      exact .mk (by simpa using hfirst) hmore hends
    · cases h

theorem Name.readName?_eq (h : Name s name rest) : readName? s = some (name, rest) := by
  obtain ⟨hfirst, hmore, hends⟩ := h
  rw [readName?, if_pos (by simpa using hfirst), span_eq_iff.2 ⟨rfl, hmore, hends⟩]

end Names

section Parts

variable (readArgs : List Char → Except Fault (List (Arg Expr) × List Char))

def readArg (s : List Char) : Except Fault (Arg Expr × List Char) :=
  match readKeyword? s with
  | some (name, valueText) =>
    (readExpr readArgs valueText).map fun (value, rest) => (⟨some (.ofList name), value⟩, rest)
  | none => (readExpr readArgs s).map fun (value, rest) => (⟨none, value⟩, rest)

def readMore (s : List Char) : Except Fault (List (Arg Expr) × List Char) :=
  match afterSymbol? ',' s with
  | some rest => readArgs rest
  | none =>
    match afterSymbol? ')' s with
    | some rest => .ok ([], rest)
    | none => .error ⟨skipBlanks s, false, some .separator⟩

theorem readArgsWithin_succ (fuel : Nat) (s : List Char) :
    readArgsWithin (fuel + 1) s =
      match afterSymbol? ')' s with
      | some rest => .ok ([], rest)
      | none =>
        match readArg (readArgsWithin fuel) s with
        | .error fault => .error fault
        | .ok (arg, afterArg) =>
          (readMore (readArgsWithin fuel) afterArg).map fun (args, rest) =>
            (arg :: args, rest) := by
  rw [readArgsWithin]
  cases afterSymbol? ')' s with
  | some rest => rfl
  | none =>
    rw [readArg]
    -- With and without a keyword, what is read after the value is the same.
    cases readKeyword? s
    all_goals
      simp only
      generalize readExpr (readArgsWithin fuel) _ = found
      rcases found with fault | ⟨value, afterArg⟩
      · rfl
      · simp only [Except.map, readMore]
        cases afterSymbol? ',' afterArg with
        | some next => cases readArgsWithin fuel next <;> rfl
        | none => cases afterSymbol? ')' afterArg <;> rfl

end Parts

section Sound

theorem derives_of_readLiteral? {content : List Char}
    (h : readLiteral? s = some (.ok (content, rest))) :
    Derives s (.expr (.text (.ofList content))) rest := by
  cases s with
  | nil => cases h
  | cons quote s =>
    rw [readLiteral?] at h
    split at h
    · rename_i hquote
      rw [Option.some.injEq] at h
      split at h
      · rename_i found hread
        cases h
        obtain ⟨units, rfl, hunits⟩ := Quoted.exists_units_of_readBody hread
        exact .text hquote hunits
      · cases h
      · cases h
    · cases h

theorem toLower_ne_of_readName?_eq_none (h : readName? s = none) :
    ∀ c ∈ s.head?, c.toLower ≠ 'i' := by
  intro c hc hlower
  cases s with
  | nil => cases hc
  | cons first s =>
    cases hc
    have hletter : isLetter c = true := by
      rcases Numeral.eq_of_toLower_eq hlower with rfl | rfl <;> exact isLetter_of_ascii (by decide)
    rw [readName?, hletter, Bool.true_or, if_pos rfl] at h
    cases h

theorem exists_name_of_readKeyword? {name : List Char} (h : readKeyword? s = some (name, rest)) :
    ∃ afterName, Name s name afterName ∧ Symbol '=' afterName rest := by
  rw [readKeyword?] at h
  split at h
  · cases h
  · rename_i found afterName hname
    split at h
    · cases h
    · cases h
    · rename_i valueText _ hequals
      cases h
      exact ⟨afterName, name_of_readName? hname, symbol_of_afterSymbol? hequals⟩

/-- Whether what a reader returns are arguments and the closing parenthesis after them. -/
def ReadsArgs (readArgs : List Char → Except Fault (List (Arg Expr) × List Char)) : Prop :=
  ∀ s args rest, readArgs s = .ok (args, rest) →
    ∃ afterArgs, Derives s (.args args) afterArgs ∧ Symbol ')' afterArgs rest

variable {readArgs : List Char → Except Fault (List (Arg Expr) × List Char)}

theorem ReadsArgs.derives_call (hreads : ReadsArgs readArgs) {name afterName inside : List Char}
    {args : List (Arg Expr)} (hname : readName? s = some (name, afterName))
    (hopen : afterSymbol? '(' afterName = some inside)
    (hargs : readArgs inside = .ok (args, rest)) : Derives s (.call ⟨.ofList name, args⟩) rest := by
  obtain ⟨afterArgs, hargs, hclose⟩ := hreads _ _ _ hargs
  exact .call (name_of_readName? hname) (symbol_of_afterSymbol? hopen) hargs hclose

theorem ReadsArgs.derives_expr (hreads : ReadsArgs readArgs) {value : Expr}
    (h : readExpr readArgs s = .ok (value, rest)) : Derives s (.expr value) rest := by
  rw [readExpr] at h
  split at h
  · rename_i content after hliteral
    cases h
    exact derives_of_readLiteral? hliteral
  · cases h
  · split at h
    · rename_i name afterName hname
      split at h
      · cases h
        exact .name (name_of_readName? hname)
      · rename_i inside hopen
        split at h
        · rename_i args after hargs
          cases h
          exact .callValue (hreads.derives_call hname hopen hargs)
        · cases h
    · rename_i hname
      split at h
      · rename_i n after hread
        cases h
        obtain ⟨text, rfl, hnumber⟩ :=
          Numeral.exists_denotes_of_read hread (toLower_ne_of_readName?_eq_none hname)
        exact .number hnumber
      · cases h

theorem ReadsArgs.derives_arg (hreads : ReadsArgs readArgs) {arg : Arg Expr}
    (h : readArg readArgs s = .ok (arg, rest)) : Derives s (.arg arg) rest := by
  rw [readArg] at h
  split at h
  · rename_i name valueText hkeyword
    obtain ⟨⟨value, after⟩, hvalue, harg⟩ := exists_of_map_eq_ok h
    cases harg
    obtain ⟨afterName, hname, hequals⟩ := exists_name_of_readKeyword? hkeyword
    exact .keyword hname hequals (hreads.derives_expr hvalue)
  · obtain ⟨⟨value, after⟩, hvalue, harg⟩ := exists_of_map_eq_ok h
    cases harg
    exact .positional (hreads.derives_expr hvalue)

theorem ReadsArgs.derives_more (hreads : ReadsArgs readArgs) {args : List (Arg Expr)}
    (h : readMore readArgs s = .ok (args, rest)) :
    ∃ afterArgs, Derives s (.more args) afterArgs ∧ Symbol ')' afterArgs rest := by
  rw [readMore] at h
  split at h
  · rename_i next hcomma
    have hcomma := symbol_of_afterSymbol? hcomma
    obtain ⟨afterArgs, hargs, hclose⟩ := hreads _ _ _ h
    refine ⟨afterArgs, ?_, hclose⟩
    cases hargs with
    | noArgs => exact .trailing hcomma
    | args harg hmore => exact .more hcomma harg hmore
  · split at h
    · rename_i hclose
      cases h
      exact ⟨s, .noMore, symbol_of_afterSymbol? hclose⟩
    · cases h

theorem readsArgs_readArgsWithin (fuel : Nat) : ReadsArgs (readArgsWithin fuel) := by
  induction fuel with
  | zero =>
    intro s args rest h
    cases h
  | succ fuel ih =>
    intro s args rest h
    rw [readArgsWithin_succ] at h
    split at h
    · rename_i hclose
      cases h
      exact ⟨s, .noArgs, symbol_of_afterSymbol? hclose⟩
    · split at h
      · cases h
      · rename_i arg afterArg harg
        obtain ⟨⟨args, last⟩, hread, hargs⟩ := exists_of_map_eq_ok h
        cases hargs
        obtain ⟨afterArgs, hmore, hclose⟩ := ih.derives_more hread
        exact ⟨afterArgs, .args (ih.derives_arg harg) hmore, hclose⟩

end Sound

section Complete

theorem BeginsValue.skipBlanks_eq (h : BeginsValue s) : skipBlanks s = s := by
  obtain ⟨first, more, rfl, hfirst⟩ := h
  exact skipBlanks_cons fun hspace =>
    hfirst (List.mem_cons_of_mem _ (List.mem_cons_of_mem _ hspace))

theorem BeginsValue.afterSymbol?_close (h : BeginsValue s) : afterSymbol? ')' s = none := by
  rw [afterSymbol?, h.skipBlanks_eq]
  obtain ⟨first, more, rfl, hfirst⟩ := h
  exact if_neg fun hclose => hfirst (by simp [hclose])

theorem EndsValue.afterSymbol?_eq_none {other : Char} (h : EndsValue rest)
    (hother : other ∈ ['(', '=']) : afterSymbol? other rest = none := by
  obtain ⟨symbol, next, hsymbol, hnext⟩ := h
  simp only [List.mem_cons, List.not_mem_nil, or_false] at hsymbol hother
  rcases hsymbol with rfl | rfl <;> rcases hother with rfl | rfl <;>
    exact hnext.afterSymbol?_eq_none (by decide) (by decide)

variable {args : List (Arg Expr)} {part : Part} {last : List Char}

/-- Whether the reader reads a part where the grammar derives it. Fuel for the length of the text
is enough. A derivation need not take the blanks after a symbol, which the reader skips. -/
def IsRead (s rest : List Char) : Part → Prop
  | .call call => ∃ name afterName inside, readName? s = some (name, afterName) ∧
      afterSymbol? '(' afterName = some inside ∧ inside.length < s.length ∧
      call.name = .ofList name ∧ ∀ fuel, inside.length ≤ fuel →
        readArgsWithin (fuel + 1) inside = .ok (call.args, skipBlanks rest)
  | .expr value => EndsValue rest → ∀ fuel, s.length ≤ fuel → ∃ after,
      readExpr (readArgsWithin fuel) s = .ok (value, after) ∧ skipBlanks after = skipBlanks rest
  | .arg arg => EndsValue rest → ∀ fuel, s.length ≤ fuel → ∃ after,
      readArg (readArgsWithin fuel) s = .ok (arg, after) ∧ skipBlanks after = skipBlanks rest
  | .args args => ∀ last, Symbol ')' rest last → ∀ fuel, (skipBlanks s).length ≤ fuel →
      readArgsWithin (fuel + 1) (skipBlanks s) = .ok (args, skipBlanks last)
  | .more args => ∀ last, Symbol ')' rest last → ∀ fuel, s.length ≤ fuel →
      ∀ t, skipBlanks t = skipBlanks s →
        readMore (readArgsWithin fuel) t = .ok (args, skipBlanks last)

theorem isRead_noArgs (s : List Char) : IsRead s s (.args []) := by
  intro last hclose fuel _
  rw [readArgsWithin_succ, afterSymbol?_congr (skipBlanks_skipBlanks s),
    hclose.afterSymbol?_eq (by decide)]

theorem isRead_args {afterArg : List Char} {arg : Arg Expr} (harg : Derives s (.arg arg) afterArg)
    (hmore : Derives afterArg (.more args) rest) (hread : IsRead s afterArg (.arg arg))
    (hreads : IsRead afterArg rest (.more args)) : IsRead s rest (.args (arg :: args)) := by
  intro last hclose fuel hfuel
  have hbegins := beginsValue_of_arg harg
  rw [hbegins.skipBlanks_eq] at hfuel ⊢
  obtain ⟨after, hread, hskip⟩ := hread (endsValue_of_more hmore hclose) fuel hfuel
  have hreads := hreads last hclose fuel (Nat.le_trans harg.length_le hfuel) after hskip
  simp only [readArgsWithin_succ, hbegins.afterSymbol?_close, hread, hreads, Except.map]

theorem isRead_more {next : List Char} (hcomma : Symbol ',' s next)
    (hargs : IsRead next rest (.args args)) : IsRead s rest (.more args) := by
  intro last hclose fuel hfuel t ht
  have hlength := hcomma.length_lt
  have hskip := length_skipBlanks_le next
  cases fuel with
  | zero => omega
  | succ fuel =>
    rw [readMore, afterSymbol?_congr ht, hcomma.afterSymbol?_eq (by decide)]
    exact hargs last hclose fuel (by omega)

theorem readLiteral?_eq_none {first : Char} {more : List Char}
    (h : Quoted.isQuote first = false) : readLiteral? (first :: more) = none :=
  if_neg (Bool.eq_false_iff.1 h)

theorem Name.readLiteral?_eq_none {name : List Char} (h : Name s name rest) :
    readLiteral? s = none := by
  obtain ⟨first, more, rfl, hfirst⟩ := h.exists_cons
  exact readLiteral?_eq_none (isQuote_of_isNameChar hfirst)

theorem readLiteral?_text {quote : Char} {units content : List Char}
    (hquote : Quoted.isQuote quote = true) (hunits : Quoted.Units quote units content) :
    readLiteral? (quote :: (units ++ quote :: rest)) = some (.ok (content, rest)) := by
  rw [readLiteral?, if_pos hquote, hunits.readBody_append hquote]

theorem readName?_eq_none_of_isQuote {quote : Char} (h : Quoted.isQuote quote = true) :
    readName? (quote :: s) = none := by
  simp only [Quoted.isQuote, Bool.or_eq_true, beq_iff_eq] at h
  refine if_neg (Bool.eq_false_iff.1 ?_)
  rcases h with rfl | rfl <;> rw [isLetter_of_ascii (by decide)] <;> decide

theorem not_literal_of_denotes {text : List Char} {n : Number} (h : Numeral.Denotes text n) :
    readLiteral? (text ++ rest) = none ∧ readName? (text ++ rest) = none := by
  obtain ⟨first, more, rfl, hfirst⟩ := h.exists_cons
  obtain ⟨hquote, hletter⟩ :
      Quoted.isQuote first = false ∧ (isLetter first || first == '_') = false := by
    rcases hfirst with hdigit | hsign
    · refine ⟨isQuote_of_isNameChar (isNameChar_of_isDigit hdigit), ?_⟩
      rw [isLetter_of_isDigit hdigit, Bool.false_or, beq_eq_false_iff_ne]
      rintro rfl
      cases hdigit
    · simp only [List.mem_cons, List.not_mem_nil, or_false] at hsign
      rcases hsign with rfl | rfl | rfl <;> rw [isLetter_of_ascii (by decide)] <;> decide
  exact ⟨readLiteral?_eq_none hquote, if_neg (Bool.eq_false_iff.1 hletter)⟩

theorem readKeyword?_eq_none {value : Expr} (h : Derives s (.expr value) rest)
    (hends : EndsValue rest) : readKeyword? s = none := by
  rw [readKeyword?]
  cases h with
  | text hquote => rw [readName?_eq_none_of_isQuote hquote]
  | name hname =>
    have hequals : afterSymbol? '=' rest = none := hends.afterSymbol?_eq_none (by decide)
    simp only [hname.readName?_eq, hequals]
  | callValue hcall =>
    cases hcall with
    | @call _ _ afterName _ _ _ _ hname hopen =>
      have hequals : afterSymbol? '=' afterName = none :=
        hopen.afterSymbol?_eq_none (by decide) (by decide)
      simp only [hname.readName?_eq, hequals]
  | number hnumber => rw [(not_literal_of_denotes hnumber).2]

theorem Name.readKeyword?_eq {name afterName valueText : List Char} {value : Expr}
    (hname : Name s name afterName) (hequals : Symbol '=' afterName valueText)
    (hvalue : Derives valueText (.expr value) rest) : readKeyword? s = some (name, valueText) := by
  have hbegins := beginsValue_of_expr hvalue
  rw [readKeyword?, hname.readName?_eq]
  simp only [hequals.afterSymbol?_eq (by decide), hbegins.skipBlanks_eq]
  obtain ⟨first, more, rfl, hfirst⟩ := hbegins
  split
  · rename_i heq
    cases heq
  · rename_i heq
    cases heq
    exact absurd List.mem_cons_self hfirst
  · rename_i heq
    cases heq
    rfl

theorem Derives.isRead (h : Derives s part rest) : IsRead s rest part := by
  induction h with
  | call hname hopen hargs hclose ih =>
    have hlength := hname.length_lt
    have hinside := hopen.length_lt
    exact ⟨_, _, _, hname.readName?_eq, hopen.afterSymbol?_eq (by decide),
      Nat.lt_of_le_of_lt (length_skipBlanks_le _) (Nat.lt_trans hinside hlength), rfl,
      fun fuel hfuel => ih _ hclose fuel hfuel⟩
  | noArgs => exact isRead_noArgs _
  | args harg hmore iharg ihmore => exact isRead_args harg hmore iharg ihmore
  | noMore =>
    intro last hclose fuel _ t ht
    rw [readMore, afterSymbol?_congr ht, hclose.afterSymbol?_eq_none (by decide) (by decide),
      afterSymbol?_congr ht, hclose.afterSymbol?_eq (by decide)]
  | trailing hcomma => exact isRead_more hcomma (isRead_noArgs _)
  | more hcomma harg hmore iharg ihmore =>
    exact isRead_more hcomma (isRead_args harg hmore iharg ihmore)
  | positional hvalue ih =>
    intro hends fuel hfuel
    obtain ⟨after, hread, hskip⟩ := ih hends fuel hfuel
    refine ⟨after, ?_, hskip⟩
    rw [readArg, readKeyword?_eq_none hvalue hends, hread]
    rfl
  | keyword hname hequals hvalue ih =>
    intro hends fuel hfuel
    have hlength := hname.length_lt
    have hvalueText := hequals.length_lt
    obtain ⟨after, hread, hskip⟩ := ih hends fuel (by omega)
    refine ⟨after, ?_, hskip⟩
    rw [readArg, hname.readKeyword?_eq hequals hvalue]
    simp only [hread, Except.map]
  | text hquote hunits =>
    intro _ fuel _
    exact ⟨_, by rw [readExpr, readLiteral?_text hquote hunits], rfl⟩
  | name hname =>
    intro hends fuel _
    have hopen : afterSymbol? '(' _ = none := hends.afterSymbol?_eq_none (by decide)
    refine ⟨_, ?_, rfl⟩
    rw [readExpr, hname.readLiteral?_eq_none, hname.readName?_eq]
    simp only [hopen]
  | callValue hcall ih =>
    intro hends fuel hfuel
    obtain ⟨name, afterName, inside, hname, hopen, hlength, hcallee, hargs⟩ := ih
    have hliteral : readLiteral? _ = none := (name_of_readName? hname).readLiteral?_eq_none
    refine ⟨_, ?_, skipBlanks_skipBlanks _⟩
    cases fuel with
    | zero => omega
    | succ fuel =>
      rw [readExpr, hliteral, hname]
      simp only [hopen, hargs fuel (by omega), hcallee]
  | number hnumber =>
    intro hends fuel _
    obtain ⟨hliteral, hname⟩ := not_literal_of_denotes hnumber
    refine ⟨_, ?_, rfl⟩
    rw [readExpr, hliteral, hname]
    simp only [hnumber.read_append hends.endsName]

end Complete

theorem readTrimmed_eq_ok_iff {call : Call} :
    readTrimmed s = .ok call ↔ Derives s (.call call) [] := by
  constructor
  · intro h
    rw [readTrimmed] at h
    split at h
    · cases h
    · rename_i name afterName hname
      split at h
      · cases h
      · rename_i inside hopen
        split at h
        · cases h
        · rename_i args hargs
          cases h
          exact (readsArgs_readArgsWithin _).derives_call hname hopen hargs
        · cases h
  · intro h
    obtain ⟨name, afterName, inside, hname, hopen, -, hcallee, hargs⟩ := h.isRead
    have hread : readArgs inside = .ok (call.args, []) := hargs _ (Nat.le_refl _)
    simp only [readTrimmed, hname, hopen, hread, ← hcallee]

/-- A text is read as a call exactly if the grammar derives that call from all of it but the blanks
around it. -/
theorem read_eq_ok_iff_derives (t : String) (call : Call) :
    Call.read t = .ok call ↔ Derives (trim t.toList) (.call call) [] := by
  rw [← readTrimmed_eq_ok_iff, Call.read]
  cases readTrimmed (trim t.toList) <;> simp

example : Call.read "f('a', at = g(b.c,\t),)" =
    .ok ⟨"f", [⟨none, .text "a"⟩, ⟨some "at", .call "g" [⟨none, .name "b.c"⟩]⟩]⟩ := by
  rfl

example : (Call.read "f(at == 2)").toOption.isNone := by
  decide +kernel

end Call

end StoryScript
