import StoryScript.Proofs.Call.Reader
import StoryScript.Proofs.Text.Trim

/-! # The texts in calls

A call takes its names, keywords and literals from the text that it is read from. An escape in a
literal can stand for the end of a line, but never for a carriage return.
-/

namespace StoryScript

open Text

mutual

def Expr.texts : Expr → List String
  | .text value => [value]
  | .number _ => []
  | .name value => [value]
  | .call name args => name :: Arg.textsOf args

def Arg.textsOf : List (Arg Expr) → List String
  | [] => []
  | ⟨keyword, value⟩ :: args => keyword.toList ++ (value.texts ++ Arg.textsOf args)

end

theorem Arg.textsOf_cons (arg : Arg Expr) (args : List (Arg Expr)) :
    Arg.textsOf (arg :: args) = Arg.textsOf [arg] ++ Arg.textsOf args := by
  simp only [Arg.textsOf, List.append_nil, List.append_assoc]

namespace Call

def texts (call : Call) : List String :=
  call.name :: Arg.textsOf call.args

def Part.texts : Part → List String
  | .call found => found.texts
  | .expr value => value.texts
  | .arg found => Arg.textsOf [found]
  | .args found => Arg.textsOf found
  | .more found => Arg.textsOf found

variable {s rest : List Char} {part : Part}

theorem Symbol.suffix {symbol : Char} (h : Symbol symbol s rest) : rest <:+ s := by
  obtain ⟨hbefore, hafter⟩ := h
  rename_i before after
  exact ⟨before ++ symbol :: after, by simp⟩

theorem not_return_of_units {quote : Char} {units content : List Char}
    (h : Quoted.Units quote units content) (hunits : '\r' ∉ units) : '\r' ∉ content := by
  induction h with
  | nil => exact hunits
  | plain hquote hbackslash hlater ih =>
    simp only [List.mem_cons, not_or] at hunits ⊢
    exact ⟨hunits.1, ih hunits.2⟩
  | newline hlater ih =>
    simp only [List.mem_cons, not_or] at hunits ⊢
    exact ⟨by decide, ih hunits.2.2⟩
  | tab hlater ih =>
    simp only [List.mem_cons, not_or] at hunits ⊢
    exact ⟨by decide, ih hunits.2.2⟩
  | escape hnewline htab hlater ih =>
    simp only [List.mem_cons, not_or] at hunits ⊢
    exact ⟨hunits.2.1, ih hunits.2.2⟩

/-- What is derived from a text without carriage returns has none. -/
theorem Derives.not_return (h : Derives s part rest) (hs : '\r' ∉ s) :
    (∀ t ∈ part.texts, '\r' ∉ t.toList) ∧ '\r' ∉ rest := by
  have hname : ∀ {s name rest}, Name s name rest → '\r' ∉ s →
      '\r' ∉ (String.ofList name).toList ∧ '\r' ∉ rest := by
    intro s name rest hname hs
    rw [hname.eq_append, List.mem_append, not_or] at hs
    rwa [String.toList_ofList]
  have hsymbol : ∀ {symbol s rest}, Symbol symbol s rest → '\r' ∉ s → '\r' ∉ rest :=
    fun hsymbol hs hmem => hs (hsymbol.suffix.subset hmem)
  have hnone : ∀ t ∈ ([] : List String), '\r' ∉ t.toList := by simp
  induction h with
  | call hcalled hopen _ hclose ih =>
    obtain ⟨hfirst, hafter⟩ := hname hcalled hs
    obtain ⟨hargs, hend⟩ := ih (hsymbol hopen hafter)
    exact ⟨List.forall_mem_cons.2 ⟨hfirst, hargs⟩, hsymbol hclose hend⟩
  | noArgs => exact ⟨hnone, hs⟩
  | args _ _ iharg ihmore =>
    obtain ⟨harg, hafter⟩ := iharg hs
    obtain ⟨hmore, hrest⟩ := ihmore hafter
    refine ⟨?_, hrest⟩
    rw [Part.texts, Arg.textsOf_cons]
    exact List.forall_mem_append.2 ⟨harg, hmore⟩
  | noMore => exact ⟨hnone, hs⟩
  | trailing hcomma => exact ⟨hnone, hsymbol hcomma hs⟩
  | more hcomma _ _ iharg ihmore =>
    obtain ⟨harg, hafter⟩ := iharg (hsymbol hcomma hs)
    obtain ⟨hmore, hrest⟩ := ihmore hafter
    refine ⟨?_, hrest⟩
    rw [Part.texts, Arg.textsOf_cons]
    exact List.forall_mem_append.2 ⟨harg, hmore⟩
  | positional _ ih =>
    obtain ⟨hvalue, hrest⟩ := ih hs
    exact ⟨List.forall_mem_append.2 ⟨hnone, List.forall_mem_append.2 ⟨hvalue, hnone⟩⟩, hrest⟩
  | keyword hkeyword hequals _ ih =>
    obtain ⟨hfirst, hafter⟩ := hname hkeyword hs
    obtain ⟨hvalue, hrest⟩ := ih (hsymbol hequals hafter)
    refine ⟨List.forall_mem_append.2 ⟨?_, List.forall_mem_append.2 ⟨hvalue, hnone⟩⟩, hrest⟩
    exact List.forall_mem_cons.2 ⟨hfirst, hnone⟩
  | text hquote hunits =>
    simp only [List.mem_cons, List.mem_append, not_or] at hs
    refine ⟨List.forall_mem_cons.2 ⟨?_, hnone⟩, hs.2.2.2⟩
    rw [String.toList_ofList]
    exact not_return_of_units hunits hs.2.1
  | name hnamed =>
    obtain ⟨hfirst, hrest⟩ := hname hnamed hs
    exact ⟨List.forall_mem_cons.2 ⟨hfirst, hnone⟩, hrest⟩
  | callValue _ ih => exact ih hs
  | number hnumber =>
    rw [List.mem_append, not_or] at hs
    exact ⟨hnone, hs.2⟩

theorem not_return_of_read {t : String} {call : Call} (h : read t = .ok call)
    (ht : '\r' ∉ t.toList) : ∀ text ∈ call.texts, '\r' ∉ text.toList := by
  have hread : readTrimmed (trim t.toList) = .ok call := by
    unfold read at h
    simp only at h
    split at h <;> cases h
    assumption
  have hderives := readTrimmed_eq_ok_iff.1 hread
  exact (hderives.not_return fun hmem => ht (trim_subset _ hmem)).1

end Call

end StoryScript
