import Mathlib.Tactic.Common
import StoryScript.Text.Blank
import StoryScript.Text.Letter
import StoryScript.Text.Quoted

/-! # Literals and names

A text can be written as a literal on one line, and the literal is read back whatever follows it.
What is read of a literal is a body of units up to the first closing quote. Names are made of
neither blanks nor quotes, and digits may stand in them.
-/

namespace StoryScript.Text

namespace Quoted

def encodeChar (c : Char) : List Char :=
  if c = '\n' then ['\\', 'n'] else if c = '"' ∨ c = '\\' then ['\\', c] else [c]

def encode (s : List Char) : List Char :=
  s.flatMap encodeChar

def literal (s : List Char) : List Char :=
  '"' :: (encode s ++ ['"'])

variable {s rest : List Char} {quote c : Char}

theorem readBody_cons (hbackslash : c ≠ '\\') :
    readBody quote (c :: s) =
      if c = quote then .ok ([], s) else withFirst c (readBody quote s) :=
  readBody.eq_4 _ _ _ (fun h _ => hbackslash h) fun _ _ h _ => hbackslash h

theorem encode_cons : encode (c :: s) = encodeChar c ++ encode s :=
  List.flatMap_cons

theorem readBody_encodeChar :
    readBody '"' (encodeChar c ++ rest) = withFirst c (readBody '"' rest) := by
  unfold encodeChar
  split
  · rename_i hc
    rw [hc]
    rfl
  · split
    · rename_i hc
      rcases hc with rfl | rfl <;> rfl
    · rename_i hc
      obtain ⟨hquote, hbackslash⟩ := not_or.1 hc
      rw [List.singleton_append, readBody_cons hbackslash, if_neg hquote]

theorem readBody_encode (s rest : List Char) :
    readBody '"' (encode s ++ '"' :: rest) = .ok (s, rest) := by
  induction s with
  | nil => rfl
  | cons c s ih => rw [encode_cons, List.append_assoc, readBody_encodeChar, ih, withFirst]

theorem read?_literal (s rest : List Char) : read? (literal s ++ rest) = some (s, rest) := by
  rw [literal, List.cons_append, List.append_assoc, List.singleton_append, read?,
    if_pos (by decide), readBody_encode]
  rfl

theorem not_lineEnd_of_mem_encode (h : '\r' ∉ s) (hc : c ∈ encode s) : c ≠ '\n' ∧ c ≠ '\r' := by
  obtain ⟨unit, hunit, hmem⟩ := List.mem_flatMap.1 hc
  unfold encodeChar at hmem
  split at hmem
  · simp only [List.mem_cons, List.not_mem_nil, or_false] at hmem
    rcases hmem with rfl | rfl <;> decide
  · rename_i hline
    have hreturn : unit ≠ '\r' := fun heq => h (heq ▸ hunit)
    split at hmem
    · simp only [List.mem_cons, List.not_mem_nil, or_false] at hmem
      rcases hmem with rfl | rfl
      · decide
      · exact ⟨hline, hreturn⟩
    · rw [List.mem_singleton] at hmem
      rw [hmem]
      exact ⟨hline, hreturn⟩

theorem encodeChar_cases (c : Char) :
    encodeChar c = [c] ∧ c ≠ '"' ∨
      (c = '\n' ∨ c = '"' ∨ c = '\\') ∧
        ∃ mark, encodeChar c = ['\\', mark] ∧ (mark = 'n' ∨ mark = '"' ∨ mark = '\\') := by
  unfold encodeChar
  split
  · rename_i hline
    exact .inr ⟨.inl hline, 'n', rfl, .inl rfl⟩
  · split
    · rename_i hmark
      exact .inr ⟨.inr hmark, c, rfl, .inr hmark⟩
    · rename_i hmark
      exact .inl ⟨rfl, fun hquote => hmark (.inl hquote)⟩

section Within

variable {pattern : List Char}

def StandsForItself (c : Char) : Prop :=
  c ≠ '"' ∧ c ≠ '\\' ∧ c ≠ '\n' ∧ c ≠ 'n'

theorem prefix_encode_iff (h : ∀ c ∈ pattern, StandsForItself c) :
    pattern <+: encode s ++ ['"'] ↔ pattern <+: s := by
  induction pattern generalizing s with
  | nil => simp
  | cons first pattern ih =>
    obtain ⟨⟨hquote, hbackslash, hline, -⟩, hlater⟩ := List.forall_mem_cons.1 h
    cases s with
    | nil => simp [encode, hquote]
    | cons c s =>
      rw [encode_cons, List.append_assoc]
      rcases encodeChar_cases c with ⟨hencode, -⟩ | ⟨hc, mark, hencode, -⟩
      · rw [hencode, List.singleton_append, List.cons_prefix_cons, List.cons_prefix_cons,
          ih hlater]
      · have hfirst : first ≠ c := by
          rintro rfl
          rcases hc with hc | hc | hc
          exacts [hline hc, hquote hc, hbackslash hc]
        simp [hencode, hfirst, hbackslash]

theorem infix_encode_iff (hne : pattern ≠ []) (h : ∀ c ∈ pattern, StandsForItself c) :
    pattern <:+: encode s ++ ['"'] ↔ pattern <:+: s := by
  obtain ⟨first, pattern, rfl⟩ := List.exists_cons_of_ne_nil hne
  obtain ⟨hquote, hbackslash, hline, hn⟩ := h first List.mem_cons_self
  induction s with
  | nil => simp [encode, List.infix_cons_iff, hquote]
  | cons c s ih =>
    have hprefix := @prefix_encode_iff (c :: s) _ h
    rw [encode_cons, List.append_assoc] at hprefix ⊢
    rcases encodeChar_cases c with ⟨hencode, -⟩ | ⟨hc, mark, hencode, hmark⟩
    · rw [hencode, List.singleton_append] at hprefix ⊢
      rw [List.infix_cons_iff, List.infix_cons_iff, hprefix, ih]
    · have hskip : first ≠ mark := by
        rintro rfl
        rcases hmark with hmark | hmark | hmark
        exacts [hn hmark, hquote hmark, hbackslash hmark]
      rw [hencode, List.cons_append, List.singleton_append] at hprefix ⊢
      rw [List.infix_cons_iff, List.infix_cons_iff, List.infix_cons_iff, hprefix, ih]
      simp [hskip]

theorem infix_literal_iff (hne : pattern ≠ []) (h : ∀ c ∈ pattern, StandsForItself c) :
    pattern <:+: literal s ↔ pattern <:+: s := by
  rw [literal, List.infix_cons_iff, infix_encode_iff hne h, or_iff_right]
  obtain ⟨first, pattern, rfl⟩ := List.exists_cons_of_ne_nil hne
  intro hprefix
  exact (h first List.mem_cons_self).1 (List.cons_prefix_cons.1 hprefix).1

theorem not_quotes_prefix_encode (s : List Char) : ¬['"', '"'] <+: encode s ++ ['"'] := by
  cases s with
  | nil => simp [encode]
  | cons c s =>
    rw [encode_cons, List.append_assoc]
    rcases encodeChar_cases c with ⟨hencode, hc⟩ | ⟨-, mark, hencode, -⟩
    · simp [hencode, Ne.symm hc]
    · simp [hencode]

theorem not_quotes_infix_literal (s : List Char) : ¬['"', '"', '"'] <:+: literal s := by
  have hencode : ¬['"', '"', '"'] <:+: encode s ++ ['"'] := by
    induction s with
    | nil => simp [encode, List.infix_cons_iff]
    | cons c s ih =>
      rw [encode_cons, List.append_assoc]
      rcases encodeChar_cases c with ⟨hencode, hc⟩ | ⟨-, mark, hencode, -⟩
      · rw [hencode, List.singleton_append, List.infix_cons_iff, List.cons_prefix_cons]
        rintro (⟨hquote, -⟩ | hlater)
        exacts [hc hquote.symm, ih hlater]
      · rw [hencode, List.cons_append, List.singleton_append, List.infix_cons_iff,
          List.infix_cons_iff]
        rintro (hescape | hmark | hlater)
        · exact absurd (List.cons_prefix_cons.1 hescape).1 (by decide)
        · exact not_quotes_prefix_encode s (List.cons_prefix_cons.1 hmark).2
        · exact ih hlater
  rw [literal, List.infix_cons_iff, List.cons_prefix_cons]
  rintro (⟨-, hprefix⟩ | hlater)
  exacts [not_quotes_prefix_encode s hprefix, hencode hlater]

end Within

/-- The units between the quotes of a literal, and the content that they stand for. -/
inductive Units (quote : Char) : List Char → List Char → Prop where
  | nil : Units quote [] []
  | plain {c : Char} {units content : List Char} (hquote : c ≠ quote) (hbackslash : c ≠ '\\') :
      Units quote units content → Units quote (c :: units) (c :: content)
  | newline {units content : List Char} :
      Units quote units content → Units quote ('\\' :: 'n' :: units) ('\n' :: content)
  | tab {units content : List Char} :
      Units quote units content → Units quote ('\\' :: 't' :: units) ('\t' :: content)
  | escape {c : Char} {units content : List Char} (hnewline : c ≠ 'n') (htab : c ≠ 't') :
      Units quote units content → Units quote ('\\' :: c :: units) (c :: content)

variable {units content : List Char}

theorem Units.escaped (h : Units quote units content) :
    Units quote ('\\' :: c :: units) (escaped c :: content) := by
  unfold Quoted.escaped
  split
  · rename_i hnewline
    rw [hnewline]
    exact h.newline
  · rename_i hnewline
    split
    · rename_i htab
      rw [htab]
      exact h.tab
    · rename_i htab
      exact h.escape hnewline htab

theorem ne_backslash_of_isQuote (h : isQuote quote = true) : quote ≠ '\\' := by
  rintro rfl
  cases h

theorem Units.readBody_append (hquote : isQuote quote = true) (h : Units quote units content) :
    readBody quote (units ++ quote :: rest) = .ok (content, rest) := by
  induction h with
  | nil => rw [List.nil_append, readBody_cons (ne_backslash_of_isQuote hquote), if_pos rfl]
  | plain hne hbackslash _ ih =>
    rw [List.cons_append, readBody_cons hbackslash, if_neg hne, ih, withFirst]
  | newline _ ih =>
    rw [List.cons_append, List.cons_append, readBody, ih]
    rfl
  | tab _ ih =>
    rw [List.cons_append, List.cons_append, readBody, ih]
    rfl
  | escape hnewline htab _ ih =>
    rw [List.cons_append, List.cons_append, readBody, ih, withFirst, Quoted.escaped,
      if_neg hnewline, if_neg htab]

theorem withFirst_eq_error_iff {fault : Fault}
    {body : Except Fault (List Char × List Char)} :
    withFirst c body = .error fault ↔ body = .error fault := by
  cases body <;> simp [withFirst]

theorem ne_backslash_of_not_escape (hlone : c = '\\' → s = [] → False)
    (hpair : ∀ d t, c = '\\' → s = d :: t → False) : c ≠ '\\' := by
  intro heq
  cases s with
  | nil => exact hlone heq rfl
  | cons d t => exact hpair d t heq rfl

theorem exists_units_of_readBody (h : readBody quote s = .ok (content, rest)) :
    ∃ units, s = units ++ quote :: rest ∧ Units quote units content := by
  fun_induction readBody quote s generalizing content with
  | case1 => cases h
  | case2 => cases h
  | case3 c s ih =>
    obtain ⟨content', hread, rfl⟩ := withFirst_eq_ok_iff.1 h
    obtain ⟨units, rfl, hunits⟩ := ih hread
    exact ⟨'\\' :: c :: units, rfl, hunits.escaped⟩
  | case4 s =>
    obtain ⟨rfl, rfl⟩ : [] = content ∧ s = rest := by simpa using h
    exact ⟨[], rfl, .nil⟩
  | case5 c s hlone hpair hne ih =>
    have hbackslash := ne_backslash_of_not_escape hlone hpair
    obtain ⟨content', hread, rfl⟩ := withFirst_eq_ok_iff.1 h
    obtain ⟨units, rfl, hunits⟩ := ih hread
    exact ⟨c :: units, rfl, .plain hne hbackslash hunits⟩

/-- A body without a closing quote is made of units, but for a backslash at its end that needs one
more character. -/
theorem exists_units_of_readBody_error {fault : Fault} (h : readBody quote s = .error fault) :
    ∃ completion content, Units quote (s ++ completion) content := by
  fun_induction readBody quote s with
  | case1 => exact ⟨[], [], .nil⟩
  | case2 => exact ⟨['\\'], ['\\'], .escape (by decide) (by decide) .nil⟩
  | case3 c s ih =>
    obtain ⟨completion, content, hunits⟩ := ih (withFirst_eq_error_iff.1 h)
    exact ⟨completion, escaped c :: content, hunits.escaped⟩
  | case4 => cases h
  | case5 c s hlone hpair hne ih =>
    have hbackslash := ne_backslash_of_not_escape hlone hpair
    obtain ⟨completion, content, hunits⟩ := ih (withFirst_eq_error_iff.1 h)
    exact ⟨completion, c :: content, .plain hne hbackslash hunits⟩

end Quoted

section Names

theorem hasCode_of_blank {code : Nat} (h : blanks.hasCode code = true) :
    letters.hasCode code = false ∧ numerals.hasCode code = false := by
  obtain ⟨range, hrange, hlow, hhigh⟩ := CodePoints.exists_range_of_hasCode h
  have hcodes : ∀ range ∈ blanks, ∀ offset < range.2 + 1 - range.1,
      letters.hasCode (range.1 + offset) = false ∧
        numerals.hasCode (range.1 + offset) = false := by
    decide +kernel
  have := hcodes range hrange (code - range.1) (by omega)
  rwa [Nat.add_sub_cancel' hlow] at this

theorem isBlank_of_isNameChar {c : Char} (h : isNameChar c = true) : isBlank c = false := by
  by_contra hblank
  rw [Bool.not_eq_false] at hblank
  obtain ⟨hletter, hnumeral⟩ := hasCode_of_blank hblank
  simp only [isNameChar, isLetter, isNumeral, CodePoints.has, hletter, hnumeral, Bool.or_eq_true,
    Bool.false_eq_true, false_or, beq_iff_eq] at h
  rcases h with rfl | rfl <;> exact absurd hblank (by decide)

/-- Below the first 128 code points, letters and numerals are those of the Latin alphabet and the
decimal digits. -/
theorem hasCode_of_ascii {c : Char} (h : c.toNat < 128) :
    letters.hasCode c.toNat = c.isAlpha ∧ numerals.hasCode c.toNat = c.isDigit := by
  have hcodes : ∀ code < 128, letters.hasCode code = (Char.ofNat code).isAlpha ∧
      numerals.hasCode code = (Char.ofNat code).isDigit := by
    decide +kernel
  have hcode := hcodes c.toNat h
  rwa [Char.ofNat_toNat] at hcode

theorem isLetter_of_ascii {c : Char} (h : c.toNat < 128) : isLetter c = c.isAlpha :=
  (hasCode_of_ascii h).1

theorem isNameChar_of_ascii {c : Char} (h : c.toNat < 128) :
    isNameChar c = (c.isAlpha || c.isDigit || c == '_' || c == '.') := by
  rw [isNameChar, isLetter_of_ascii h, isNumeral, CodePoints.has, (hasCode_of_ascii h).2]

theorem isNameChar_of_isQuote {c : Char} (h : Quoted.isQuote c = true) : isNameChar c = false := by
  simp only [Quoted.isQuote, Bool.or_eq_true, beq_iff_eq] at h
  rcases h with rfl | rfl <;> exact isNameChar_of_ascii (by decide)

theorem isQuote_of_isNameChar {c : Char} (h : isNameChar c = true) : Quoted.isQuote c = false := by
  by_contra hquote
  rw [isNameChar_of_isQuote (Bool.not_eq_false _ ▸ hquote)] at h
  cases h

theorem hasCode_of_isDigit {c : Char} (h : c.isDigit = true) :
    letters.hasCode c.toNat = false ∧ numerals.hasCode c.toNat = true := by
  simp only [Char.isDigit, Bool.and_eq_true, decide_eq_true_eq, UInt32.le_iff_toNat_le] at h
  have hdigits : ∀ digit < 10, letters.hasCode ('0'.toNat + digit) = false ∧
      numerals.hasCode ('0'.toNat + digit) = true := by
    decide +kernel
  have hfirst : '0'.toNat ≤ c.toNat := h.1
  have hlast : c.toNat < '0'.toNat + 10 := Nat.lt_succ_of_le h.2
  have hdigit := hdigits (c.toNat - '0'.toNat) (by omega)
  rwa [Nat.add_sub_cancel' hfirst] at hdigit

theorem isLetter_of_isDigit {c : Char} (h : c.isDigit = true) : isLetter c = false :=
  (hasCode_of_isDigit h).1

theorem isNameChar_of_isDigit {c : Char} (h : c.isDigit = true) : isNameChar c = true := by
  rw [isNameChar, isNumeral, CodePoints.has, (hasCode_of_isDigit h).2, Bool.or_true]
  rfl

def EndsName (rest : List Char) : Prop :=
  ∀ c ∈ rest.head?, isNameChar c = false

variable {rest : List Char}

theorem EndsName.ne_of_isNameChar {c d : Char} (h : EndsName rest) (hc : c ∈ rest.head?)
    (hd : isNameChar d = true) : c ≠ d := by
  rintro rfl
  rw [h c hc] at hd
  cases hd

theorem EndsName.isDigit_eq_false (h : EndsName rest) : ∀ c ∈ rest.head?, c.isDigit = false :=
  fun _ hc => Bool.eq_false_iff.2 fun hdigit =>
    h.ne_of_isNameChar hc (isNameChar_of_isDigit hdigit) rfl

end Names

end StoryScript.Text
