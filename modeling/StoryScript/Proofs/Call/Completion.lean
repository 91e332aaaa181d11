import StoryScript.Proofs.Call.Grammar

/-! # Completing a text to a call

What a part of a call takes of a text does not depend on what comes after it, unless that prolongs
a name. So the same part is derived from any text that begins in the same way. A text that breaks
off in the middle of a part is viable if something can be put after it that makes the part whole,
whatever follows then.
-/

namespace StoryScript.Call

open Text

variable {symbol : Char} {s rest other : List Char} {part : Part}

/-! ## Other texts after a part -/

theorem Symbol.behind {blanks : List Char} (hblanks : ∀ c ∈ blanks, c ∈ spaces)
    (rest : List Char) : Symbol symbol (blanks ++ symbol :: rest) rest := by
  have hsymbol : Symbol symbol (blanks ++ symbol :: ([] ++ rest)) rest :=
    .mk hblanks (List.forall_mem_nil _)
  exact hsymbol

theorem Symbol.here (rest : List Char) : Symbol symbol (symbol :: rest) rest := by
  have hsymbol : Symbol symbol ([] ++ symbol :: rest) rest :=
    .behind (List.forall_mem_nil _) rest
  exact hsymbol

theorem Symbol.exists_text (h : Symbol symbol s rest) :
    ∃ text, s = text ++ rest ∧ ∀ other, Symbol symbol (text ++ other) other := by
  obtain @⟨before, after, _, hbefore, hafter⟩ := h
  refine ⟨before ++ symbol :: after, by simp, fun other => ?_⟩
  have hsymbol : Symbol symbol (before ++ symbol :: (after ++ other)) other := .mk hbefore hafter
  simpa using hsymbol

theorem Name.append {name : List Char} (h : Name s name rest) (hother : EndsName other) :
    Name (name ++ other) name other := by
  obtain ⟨hfirst, hmore, -⟩ := h
  exact .mk hfirst hmore hother

theorem Name.append_symbol {name : List Char} {t next : List Char} (h : Name s name rest)
    (hsymbol : Symbol symbol t next) (hmem : symbol ∈ symbols) :
    Name (name ++ t) name t :=
  h.append (hsymbol.endsName hmem)

theorem endsName_of_more {args : List (Arg Expr)} (h : Derives s (.more args) rest)
    (hrest : EndsName rest) : EndsName s := by
  cases h with
  | noMore => exact hrest
  | trailing hcomma => exact hcomma.endsName (by decide)
  | more hcomma => exact hcomma.endsName (by decide)

/-- A part is derived from every text that begins in the same way, if what comes after does not
prolong a name. -/
theorem Derives.exists_text (h : Derives s part rest) :
    ∃ text, s = text ++ rest ∧ ∀ other, EndsName other → Derives (text ++ other) part other := by
  induction h with
  | @call _ name _ _ _ _ _ hname hopen _ hclose ih =>
    obtain rfl := hname.eq_append
    obtain ⟨opening, rfl, hopening⟩ := hopen.exists_text
    obtain ⟨inside, rfl, hinside⟩ := ih
    obtain ⟨closing, rfl, hclosing⟩ := hclose.exists_text
    refine ⟨name ++ (opening ++ (inside ++ closing)), by simp, fun other _ => ?_⟩
    have hargs := hinside (closing ++ other) ((hclosing other).endsName (by decide))
    have hopen := hopening (inside ++ (closing ++ other))
    simp only [List.append_assoc]
    exact .call (hname.append_symbol hopen (by decide)) hopen hargs (hclosing other)
  | noArgs => exact ⟨[], rfl, fun other _ => .noArgs⟩
  | args _ _ iharg ihmore =>
    obtain ⟨first, rfl, hfirst⟩ := iharg
    obtain ⟨later, rfl, hlater⟩ := ihmore
    refine ⟨first ++ later, by simp, fun other hother => ?_⟩
    have hmore := hlater other hother
    rw [List.append_assoc]
    exact .args (hfirst _ (endsName_of_more hmore hother)) hmore
  | noMore => exact ⟨[], rfl, fun other _ => .noMore⟩
  | trailing hcomma =>
    obtain ⟨comma, rfl, hseparates⟩ := hcomma.exists_text
    exact ⟨comma, rfl, fun other _ => .trailing (hseparates other)⟩
  | more hcomma _ _ iharg ihmore =>
    obtain ⟨comma, rfl, hseparates⟩ := hcomma.exists_text
    obtain ⟨first, rfl, hfirst⟩ := iharg
    obtain ⟨later, rfl, hlater⟩ := ihmore
    refine ⟨comma ++ (first ++ later), by simp, fun other hother => ?_⟩
    have hmore := hlater other hother
    simp only [List.append_assoc]
    exact .more (hseparates _) (hfirst _ (endsName_of_more hmore hother)) hmore
  | positional _ ih =>
    obtain ⟨text, rfl, htext⟩ := ih
    exact ⟨text, rfl, fun other hother => .positional (htext other hother)⟩
  | @keyword _ name _ _ _ _ hname hequals _ ih =>
    obtain rfl := hname.eq_append
    obtain ⟨sign, rfl, hsign⟩ := hequals.exists_text
    obtain ⟨text, rfl, htext⟩ := ih
    refine ⟨name ++ (sign ++ text), by simp, fun other hother => ?_⟩
    have hequals := hsign (text ++ other)
    simp only [List.append_assoc]
    exact .keyword (hname.append_symbol hequals (by decide)) hequals (htext other hother)
  | @text quote units content _ hquote hunits =>
    refine ⟨quote :: (units ++ [quote]), by simp, fun other _ => ?_⟩
    have htext : Derives (quote :: (units ++ quote :: other)) (.expr (.text (.ofList content)))
        other := .text hquote hunits
    simpa using htext
  | name hname =>
    obtain rfl := hname.eq_append
    exact ⟨_, rfl, fun other hother => .name (hname.append hother)⟩
  | callValue _ ih =>
    obtain ⟨text, rfl, htext⟩ := ih
    exact ⟨text, rfl, fun other hother => .callValue (htext other hother)⟩
  | number hnumber => exact ⟨_, rfl, fun other _ => .number hnumber⟩

/-! ## Texts that break off -/

/-- A call at the start of a text, with the second text after it. -/
def IsCall (s rest : List Char) : Prop :=
  ∃ call, Derives s (.call call) rest

def IsExpr (s rest : List Char) : Prop :=
  ∃ value, Derives s (.expr value) rest

def IsArg (s rest : List Char) : Prop :=
  ∃ arg, Derives s (.arg arg) rest

/-- Arguments and the closing parenthesis at the start of a text, with the second text after
them. -/
def ClosesArgs (s rest : List Char) : Prop :=
  ∃ args afterArgs, Derives s (.args args) afterArgs ∧ Symbol ')' afterArgs rest

/-- What follows the first of several arguments, and the closing parenthesis, at the start of a
text, with the second text after them. -/
def ClosesMore (s rest : List Char) : Prop :=
  ∃ args afterArgs, Derives s (.more args) afterArgs ∧ Symbol ')' afterArgs rest

variable {P Q : List Char → List Char → Prop} {before unread : List Char}

/-- Whether a text can be completed so that a part ends where the completion does, whatever comes
after. -/
def Begins (P : List Char → List Char → Prop) (before : List Char) : Prop :=
  ∃ completion, ∀ other, EndsName other → P (before ++ (completion ++ other)) other

/-- Whether a text breaks off where a part could have been completed. -/
def BreaksOff (P : List Char → List Char → Prop) (s unread : List Char) : Prop :=
  ∃ before, s = before ++ unread ∧ Begins P before

theorem endsName_nil : EndsName [] := nofun

theorem endsName_cons {c : Char} (h : isNameChar c = false) : EndsName (c :: s) := by
  rintro _ ⟨⟩
  exact h

/-- If a part of a greater one can be completed, then so can the greater one, with a text in front
of its part and another one after it. -/
theorem BreaksOff.imp (text tail : List Char) (h : BreaksOff P s unread)
    (htail : ∀ other, EndsName other → EndsName (tail ++ other))
    (himp : ∀ s other, EndsName other → P s (tail ++ other) → Q (text ++ s) other) :
    BreaksOff Q (text ++ s) unread := by
  obtain ⟨before, rfl, completion, hbegins⟩ := h
  refine ⟨text ++ before, (List.append_assoc _ _ _).symm, completion ++ tail, ?_⟩
  intro other hother
  have hpart := hbegins (tail ++ other) (htail other hother)
  simpa using himp _ other hother hpart

theorem breaksOff_args_of_arg (h : BreaksOff IsArg s unread) : BreaksOff ClosesArgs s unread := by
  refine BreaksOff.imp [] [')'] h ?_ ?_
  · exact fun _ _ => endsName_cons (isNameChar_of_mem_symbols (by decide))
  · rintro s other - ⟨arg, harg⟩
    exact ⟨[arg], _, .args harg .noMore, .here other⟩

theorem breaksOff_args_of_more {arg : Arg Expr} (harg : Derives s (.arg arg) rest)
    (h : BreaksOff ClosesMore rest unread) : BreaksOff ClosesArgs s unread := by
  obtain ⟨text, rfl, htext⟩ := harg.exists_text
  refine BreaksOff.imp _ [] h (fun _ hother => hother) ?_
  rintro s other - ⟨args, afterArgs, hmore, hclose⟩
  have hends := (endsValue_of_more hmore hclose).endsName
  exact ⟨arg :: args, afterArgs, .args (htext s hends) hmore, hclose⟩

theorem breaksOff_more_of_args (hcomma : Symbol ',' s rest)
    (h : BreaksOff ClosesArgs rest unread) : BreaksOff ClosesMore s unread := by
  obtain ⟨comma, rfl, hseparates⟩ := hcomma.exists_text
  refine BreaksOff.imp _ [] h (fun _ hother => hother) ?_
  rintro s other - ⟨args, afterArgs, hargs, hclose⟩
  refine ⟨args, afterArgs, ?_, hclose⟩
  cases hargs with
  | noArgs => exact .trailing (hseparates s)
  | args harg hmore => exact .more (hseparates s) harg hmore

theorem breaksOff_arg_of_expr (h : BreaksOff IsExpr s unread) : BreaksOff IsArg s unread := by
  refine BreaksOff.imp [] [] h (fun _ hother => hother) ?_
  rintro s other - ⟨value, hvalue⟩
  exact ⟨_, .positional hvalue⟩

theorem breaksOff_keyword_of_expr {name afterName : List Char} (hname : Name s name afterName)
    (hequals : Symbol '=' afterName rest) (h : BreaksOff IsExpr rest unread) :
    BreaksOff IsArg s unread := by
  obtain rfl := hname.eq_append
  obtain ⟨sign, rfl, hsign⟩ := hequals.exists_text
  rw [← List.append_assoc]
  refine BreaksOff.imp _ [] h (fun _ hother => hother) ?_
  rintro s other - ⟨value, hvalue⟩
  rw [List.append_assoc]
  exact ⟨_, .keyword (hname.append_symbol (hsign s) (by decide)) (hsign s) hvalue⟩

theorem breaksOff_call_of_args {name afterName : List Char} (hname : Name s name afterName)
    (hopen : Symbol '(' afterName rest) (h : BreaksOff ClosesArgs rest unread) :
    BreaksOff IsCall s unread := by
  obtain rfl := hname.eq_append
  obtain ⟨opening, rfl, hopening⟩ := hopen.exists_text
  rw [← List.append_assoc]
  refine BreaksOff.imp _ [] h (fun _ hother => hother) ?_
  rintro s other - ⟨args, afterArgs, hargs, hclose⟩
  have hopen := hopening s
  rw [List.append_assoc]
  exact ⟨_, .call (hname.append_symbol hopen (by decide)) hopen hargs hclose⟩

theorem breaksOff_expr_of_call (h : BreaksOff IsCall s unread) : BreaksOff IsExpr s unread := by
  refine BreaksOff.imp [] [] h (fun _ hother => hother) ?_
  rintro s other - ⟨call, hcall⟩
  exact ⟨_, .callValue hcall⟩

theorem breaksOff_call_of_name {name blanks : List Char} (hname : Name s name (blanks ++ unread))
    (hblanks : ∀ c ∈ blanks, c ∈ spaces) : BreaksOff IsCall s unread := by
  refine ⟨name ++ blanks, ?_, ['(', ')'], fun other _ => ?_⟩
  · rw [hname.eq_append, List.append_assoc]
  have hopen : Symbol '(' (blanks ++ '(' :: ')' :: other) (')' :: other) := .behind hblanks _
  rw [List.append_assoc]
  exact ⟨_, .call (hname.append_symbol hopen (by decide)) hopen .noArgs (.here other)⟩

end StoryScript.Call
