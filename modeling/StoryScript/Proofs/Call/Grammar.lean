import StoryScript.Call.Basic
import StoryScript.Proofs.Number.Numeral

/-! # The grammar of calls

A derivation relates a text, a part of a call and the text after the part. The text after the part
is kept because a name goes on as far as it can.

The first character of a value is no blank and no symbol, and after a value a comma or a closing
parenthesis comes next. The reader can tell by these where it is.
-/

namespace StoryScript.Call

open Text

def spaces : List Char := [' ', '\t', '\r', '\n']

/-- A symbol at the start of a text, with any blanks around it. -/
inductive Symbol (symbol : Char) : List Char → List Char → Prop where
  | mk {before after rest : List Char} (hbefore : ∀ c ∈ before, c ∈ spaces)
      (hafter : ∀ c ∈ after, c ∈ spaces) :
      Symbol symbol (before ++ symbol :: (after ++ rest)) rest

/-- A name at the start of a text. It ends only where it cannot go on. -/
inductive Name : List Char → List Char → List Char → Prop where
  | mk {first : Char} {more rest : List Char} (hfirst : isLetter first = true ∨ first = '_')
      (hmore : ∀ c ∈ more, isNameChar c = true) (hends : EndsName rest) :
      Name (first :: (more ++ rest)) (first :: more) rest

inductive Part where
  | call (call : Call)
  | expr (value : Expr)
  | arg (arg : Arg Expr)
  | args (args : List (Arg Expr))
  /-- What follows the first of several arguments. -/
  | more (args : List (Arg Expr))

/-- The part that stands at the start of the first text, with the second text after it. -/
inductive Derives : List Char → Part → List Char → Prop where
  | call {s name afterName inside afterArgs rest : List Char} {args : List (Arg Expr)}
      (hname : Name s name afterName) (hopen : Symbol '(' afterName inside)
      (hargs : Derives inside (.args args) afterArgs) (hclose : Symbol ')' afterArgs rest) :
      Derives s (.call ⟨.ofList name, args⟩) rest
  | noArgs {s : List Char} : Derives s (.args []) s
  | args {s afterArg rest : List Char} {arg : Arg Expr} {args : List (Arg Expr)}
      (harg : Derives s (.arg arg) afterArg) (hmore : Derives afterArg (.more args) rest) :
      Derives s (.args (arg :: args)) rest
  | noMore {s : List Char} : Derives s (.more []) s
  | trailing {s rest : List Char} (hcomma : Symbol ',' s rest) : Derives s (.more []) rest
  | more {s next afterArg rest : List Char} {arg : Arg Expr} {args : List (Arg Expr)}
      (hcomma : Symbol ',' s next) (harg : Derives next (.arg arg) afterArg)
      (hmore : Derives afterArg (.more args) rest) : Derives s (.more (arg :: args)) rest
  | positional {s rest : List Char} {value : Expr} (hvalue : Derives s (.expr value) rest) :
      Derives s (.arg ⟨none, value⟩) rest
  | keyword {s name afterName valueText rest : List Char} {value : Expr}
      (hname : Name s name afterName) (hequals : Symbol '=' afterName valueText)
      (hvalue : Derives valueText (.expr value) rest) :
      Derives s (.arg ⟨some (.ofList name), value⟩) rest
  | text {quote : Char} {units content rest : List Char} (hquote : Quoted.isQuote quote = true)
      (hunits : Quoted.Units quote units content) :
      Derives (quote :: (units ++ quote :: rest)) (.expr (.text (.ofList content))) rest
  | name {s name rest : List Char} (hname : Name s name rest) :
      Derives s (.expr (.name (.ofList name))) rest
  | callValue {s rest : List Char} {call : Call} (hcall : Derives s (.call call) rest) :
      Derives s (.expr (.call call.name call.args)) rest
  | number {text rest : List Char} {n : Number} (hnumber : Numeral.Denotes text n) :
      Derives (text ++ rest) (.expr (.number n)) rest

variable {symbol : Char} {s rest : List Char} {part : Part}

theorem Name.eq_append {name : List Char} (h : Name s name rest) : s = name ++ rest := by
  obtain ⟨hfirst, hmore, hends⟩ := h
  rfl

section Lengths

theorem Symbol.length_lt (h : Symbol symbol s rest) : rest.length < s.length := by
  obtain ⟨hbefore, hafter⟩ := h
  simp only [List.length_append, List.length_cons]
  omega

theorem Name.length_lt {name : List Char} (h : Name s name rest) : rest.length < s.length := by
  obtain ⟨hfirst, hmore, hends⟩ := h
  simp only [List.length_cons, List.length_append]
  omega

theorem Derives.length_le (h : Derives s part rest) : rest.length ≤ s.length := by
  induction h with
  | call hname hopen _ hclose ih =>
    have := hname.length_lt
    have := hopen.length_lt
    have := hclose.length_lt
    omega
  | noArgs => exact Nat.le_refl _
  | args _ _ harg hmore => exact Nat.le_trans hmore harg
  | noMore => exact Nat.le_refl _
  | trailing hcomma => exact Nat.le_of_lt hcomma.length_lt
  | more hcomma _ _ harg hmore =>
    exact Nat.le_trans (Nat.le_trans hmore harg) (Nat.le_of_lt hcomma.length_lt)
  | positional _ ih => exact ih
  | keyword hname hequals _ ih =>
    have := hname.length_lt
    have := hequals.length_lt
    omega
  | text =>
    simp only [List.length_cons, List.length_append]
    omega
  | name hname => exact Nat.le_of_lt hname.length_lt
  | callValue _ ih => exact ih
  | number =>
    rw [List.length_append]
    omega

end Lengths

section Beginnings

variable {value : Expr} {arg : Arg Expr}

def BeginsValue (s : List Char) : Prop :=
  ∃ first more, s = first :: more ∧ first ∉ '=' :: ')' :: spaces

/-- The symbols of calls. -/
def symbols : List Char := ['(', ')', ',', '=']

theorem isNameChar_of_mem_symbols {c : Char} (h : c ∈ symbols) : isNameChar c = false := by
  simp only [symbols, List.mem_cons, List.not_mem_nil, or_false] at h
  rcases h with rfl | rfl | rfl | rfl <;> exact isNameChar_of_ascii (by decide)

theorem isNameChar_of_mem_spaces {c : Char} (h : c ∈ spaces) : isNameChar c = false := by
  simp only [spaces, List.mem_cons, List.not_mem_nil, or_false] at h
  rcases h with rfl | rfl | rfl | rfl <;> exact isNameChar_of_ascii (by decide)

theorem beginsValue_of_isNameChar {first : Char} (h : isNameChar first = true) :
    BeginsValue (first :: rest) := by
  refine ⟨first, rest, rfl, fun hmem => ?_⟩
  rcases List.mem_cons.1 hmem with rfl | hmem
  · cases h.symm.trans (isNameChar_of_mem_symbols (by decide))
  · rcases List.mem_cons.1 hmem with rfl | hspace
    · cases h.symm.trans (isNameChar_of_mem_symbols (by decide))
    · rw [isNameChar_of_mem_spaces hspace] at h
      cases h

theorem Name.exists_cons {name : List Char} (h : Name s name rest) :
    ∃ first more, s = first :: more ∧ isNameChar first = true := by
  obtain ⟨hfirst, hmore, hends⟩ := h
  refine ⟨_, _, rfl, ?_⟩
  rcases hfirst with hletter | rfl
  · rw [isNameChar, hletter]
    rfl
  · exact isNameChar_of_ascii (by decide)

theorem Name.beginsValue {name : List Char} (h : Name s name rest) : BeginsValue s := by
  obtain ⟨first, more, rfl, hfirst⟩ := h.exists_cons
  exact beginsValue_of_isNameChar hfirst

theorem beginsValue_of_expr (h : Derives s (.expr value) rest) : BeginsValue s := by
  cases h with
  | text hquote =>
    refine ⟨_, _, rfl, ?_⟩
    simp only [Quoted.isQuote, Bool.or_eq_true, beq_iff_eq] at hquote
    rcases hquote with rfl | rfl <;> decide
  | name hname => exact hname.beginsValue
  | callValue hcall =>
    cases hcall with
    | call hname => exact hname.beginsValue
  | number hnumber =>
    obtain ⟨first, more, rfl, hfirst⟩ := hnumber.exists_cons
    rcases hfirst with hdigit | hsign
    · exact beginsValue_of_isNameChar (isNameChar_of_isDigit hdigit)
    · refine ⟨first, _, rfl, ?_⟩
      simp only [List.mem_cons, List.not_mem_nil, or_false] at hsign
      rcases hsign with rfl | rfl | rfl <;> decide

theorem beginsValue_of_arg (h : Derives s (.arg arg) rest) : BeginsValue s := by
  cases h with
  | positional hvalue => exact beginsValue_of_expr hvalue
  | keyword hname => exact hname.beginsValue

end Beginnings

section Ends

variable {args : List (Arg Expr)} {last : List Char}

/-- Whether a value ends in front of a text: a comma or a closing parenthesis comes next. -/
def EndsValue (rest : List Char) : Prop :=
  ∃ symbol next, symbol ∈ [',', ')'] ∧ Symbol symbol rest next

theorem Symbol.endsName (h : Symbol symbol s rest) (hsymbol : symbol ∈ symbols) :
    EndsName s := by
  obtain @⟨before, _, _, hbefore, -⟩ := h
  cases before with
  | nil =>
    rintro _ ⟨⟩
    exact isNameChar_of_mem_symbols hsymbol
  | cons c before =>
    rintro _ ⟨⟩
    exact isNameChar_of_mem_spaces (hbefore c List.mem_cons_self)

theorem EndsValue.endsName (h : EndsValue rest) : EndsName rest := by
  obtain ⟨symbol, next, hsymbol, hnext⟩ := h
  refine hnext.endsName ?_
  simp only [List.mem_cons, List.not_mem_nil, or_false] at hsymbol
  rcases hsymbol with rfl | rfl <;> decide

theorem endsValue_of_more (h : Derives s (.more args) rest) (hclose : Symbol ')' rest last) :
    EndsValue s := by
  cases h with
  | noMore => exact ⟨')', last, by decide, hclose⟩
  | trailing hcomma => exact ⟨',', _, by decide, hcomma⟩
  | more hcomma => exact ⟨',', _, by decide, hcomma⟩

end Ends

end StoryScript.Call
