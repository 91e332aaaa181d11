import StoryScript.Proofs.Condition.Basic
import StoryScript.Proofs.Condition.Order
import StoryScript.Proofs.Value

/-! # Comparisons

Two operands with the sign of a relation between them are a comparison by this relation, whatever
else the operands hold, as long as no sign, no separator and no `not` stands in them. So the six
relations agree with one order of what the operands denote. Texts that are not both numbers are
ordered by their lower-case forms, by whichever relation they are compared.
-/

namespace StoryScript

open Text Numeral

/-- The characters of the signs of relations. -/
def signCharacters : List Char :=
  ['=', '!', '<', '>']

structure IsOperand (s : List Char) : Prop extends IsUndivided s where
  unsigned : ∀ c ∈ s, c ∉ signCharacters
  plain : ¬(' ' :: negationWord <+: spaced s)

instance (s : List Char) : Decidable (IsOperand s) :=
  decidable_of_iff
    (IsUndivided s ∧ s.all (· ∉ signCharacters) ∧ ¬(' ' :: negationWord <+: spaced s))
    ⟨fun h => ⟨h.1, by simpa using h.2.1, h.2.2⟩, fun h => ⟨h.1, by simpa using h.2, h.3⟩⟩

theorem eq_of_mem_signCharacters {c : Char} (hc : c ∈ signCharacters) :
    c = '=' ∨ c = '!' ∨ c = '<' ∨ c = '>' := by
  simpa [signCharacters] using hc

namespace Relation

def sign : Relation → List Char
  | equal => ['=', '=']
  | notEqual => ['!', '=']
  | atLeast => ['>', '=']
  | atMost => ['<', '=']
  | greater => ['>']
  | less => ['<']

/-- The text that compares two operands by a relation. -/
def between (relation : Relation) (left right : List Char) : List Char :=
  left ++ ' ' :: (relation.sign ++ ' ' :: right)

theorem sign_ne_nil (relation : Relation) : relation.sign ≠ [] := by
  cases relation <;> exact List.cons_ne_nil _ _

theorem mem_signCharacters (relation : Relation) : ∀ c ∈ relation.sign, c ∈ signCharacters := by
  cases relation <;> simp [sign, signCharacters]

theorem exists_sign_eq_cons (relation : Relation) :
    ∃ c rest, relation.sign = c :: rest ∧ c ∈ signCharacters := by
  obtain ⟨c, rest, hsign⟩ := List.exists_cons_of_ne_nil relation.sign_ne_nil
  refine ⟨c, rest, hsign, relation.mem_signCharacters c ?_⟩
  rw [hsign]
  exact List.mem_cons_self

theorem signs_eq_append (relation : Relation) :
    ∃ (before : List Relation) (after : List (List Char × Relation)),
      signs = before.map (fun other => (other.sign, other)) ++ (relation.sign, relation) :: after ∧
        ∀ other ∈ before, ¬other.sign <:+: relation.sign := by
  cases relation with
  | equal => exact ⟨[], _, rfl, by decide⟩
  | notEqual => exact ⟨[equal], _, rfl, by decide⟩
  | atLeast => exact ⟨[equal, notEqual], _, rfl, by decide⟩
  | atMost => exact ⟨[equal, notEqual, atLeast], _, rfl, by decide⟩
  | greater => exact ⟨[equal, notEqual, atLeast, atMost], _, rfl, by decide⟩
  | less => exact ⟨[equal, notEqual, atLeast, atMost, greater], _, rfl, by decide⟩

end Relation

/-! ## The sign of a comparison -/

section Sign

variable {relation other : Relation} {s t : List Char}

theorem infix_sign_of_append (hs : ∀ c ∈ s, c ∉ signCharacters) (ht : ∀ c ∈ t, c ∉ signCharacters)
    (h : other.sign <:+: s ++ (relation.sign ++ t)) : other.sign <:+: relation.sign := by
  have hne := other.sign_ne_nil
  refine infix_of_infix_append_right hne ?_ (infix_of_infix_append_left hne ?_ h)
  · intro c hc hmem
    exact ht c hmem (other.mem_signCharacters c (List.mem_of_getLast? hc))
  · intro c hc hmem
    exact hs c hmem (other.mem_signCharacters c (List.mem_of_head? hc))

theorem cut?_sign (hs : ∀ c ∈ s, c ∉ signCharacters) (relation : Relation) (t : List Char) :
    cut? relation.sign (s ++ (relation.sign ++ t)) = some (s, t) := by
  obtain ⟨c, rest, hsign, hc⟩ := relation.exists_sign_eq_cons
  rw [hsign]
  exact cut?_append_of_not_mem (fun hmem => hs c hmem hc) t

theorem readComparison?_append (hs : ∀ c ∈ s, c ∉ signCharacters)
    (ht : ∀ c ∈ t, c ∉ signCharacters) (relation : Relation) :
    Test.readComparison? (s ++ (relation.sign ++ t)) =
      some (.comparison relation (Test.readOperand s) (Test.readOperand t)) := by
  obtain ⟨before, after, hsigns, hbefore⟩ := relation.signs_eq_append
  refine List.findSome?_eq_some_iff.2 ⟨_, _, after, hsigns, ?_, ?_⟩
  · simp only [cut?_sign hs, Option.map_some]
  · intro entry hentry
    obtain ⟨other, hother, rfl⟩ := List.mem_map.1 hentry
    have hnot := mt (infix_sign_of_append hs ht) (hbefore other hother)
    simp only [cut?_eq_none hnot, Option.map_none]

theorem truth?_eq_none {c : Char} (hmem : c ∈ s) (hc : c ∈ signCharacters) :
    Value.truth? s = none := by
  have hwords : ∀ word ∈ [['t', 'r', 'u', 'e'], ['f', 'a', 'l', 's', 'e']],
      foldLatin c ∉ word.map foldLatin := by
    rcases eq_of_mem_signCharacters hc with rfl | rfl | rfl | rfl <;> decide
  have hfalse : ∀ word ∈ [['t', 'r', 'u', 'e'], ['f', 'a', 'l', 's', 'e']],
      equalFoldingLatin s word = false := by
    intro word hword
    refine Bool.eq_false_iff.2 fun hequal => hwords word hword ?_
    rw [← equalFoldingLatin_iff.1 hequal]
    exact List.mem_map_of_mem hmem
  rw [Value.truth?, hfalse _ (by decide), hfalse _ (by decide)]
  rfl

end Sign

/-! ## Operands around a sign -/

namespace Relation

variable {relation : Relation} {left right : List Char}

theorem between_eq_append (relation : Relation) (left right : List Char) :
    relation.between left right = left ++ [' '] ++ (relation.sign ++ ' ' :: right) := by
  rw [between, List.append_assoc, List.singleton_append]

/-- A comparison without the blanks that an empty operand leaves at its ends. -/
theorem trim_between (relation : Relation) (left right : List Char) :
    trim (relation.between left right) =
      trimStart (left ++ [' ']) ++ (relation.sign ++ trimEnd (' ' :: right)) := by
  have hplain : ∀ c ∈ relation.sign, isBlank c = false := by
    intro c hc
    rcases eq_of_mem_signCharacters (relation.mem_signCharacters c hc) with
      rfl | rfl | rfl | rfl <;> decide
  have hhead : ∀ c ∈ (relation.sign ++ ' ' :: right).head?, isBlank c = false := by
    rw [List.head?_append_of_ne_nil _ relation.sign_ne_nil]
    exact fun c hc => hplain c (List.mem_of_head? hc)
  have hne : trimStart (left ++ [' ']) ++ relation.sign ≠ [] :=
    List.append_ne_nil_of_right_ne_nil _ relation.sign_ne_nil
  have hlast : EndsPlain (trimStart (left ++ [' ']) ++ relation.sign) :=
    endsPlain_append relation.sign_ne_nil fun c hc => hplain c (List.mem_of_getLast? hc)
  calc trim (relation.between left right)
      = trimEnd (trimStart (left ++ [' ']) ++ (relation.sign ++ ' ' :: right)) := by
        rw [between_eq_append, trim, trimStart_append _ hhead]
        exact List.append_ne_nil_of_left_ne_nil relation.sign_ne_nil _
    _ = trimStart (left ++ [' ']) ++ (relation.sign ++ trimEnd (' ' :: right)) := by
        rw [← List.append_assoc, trimEnd_append hne hlast, List.append_assoc]

/-- A word between spaces that does not stand in the operands does not stand in a comparison. -/
theorem not_spaced_infix_between (word : List Char) (hword : ∀ c ∈ spaced word, c ∉ signCharacters)
    (hleft : ¬spaced word <:+: spaced left) (hright : ¬spaced word <:+: spaced right) :
    ¬spaced word <:+: relation.between left right := by
  have hsign : ∀ c ∈ relation.sign, c ∉ spaced word :=
    fun c hc hmem => hword c hmem (relation.mem_signCharacters c hc)
  rw [between_eq_append, infix_append_append_iff (spaced_ne_nil word) relation.sign_ne_nil hsign]
  rintro (h | h)
  · exact hleft (List.infix_cons h)
  · exact hright (h.trans ⟨[], [' '], rfl⟩)

end Relation

namespace Condition

/-- The text that an operand denotes. -/
def denoted (lookup : Variables) (s : List Char) : String :=
  Test.resolve lookup (Test.readOperand s)

variable {relation : Relation} {left right : List Char} {lookup : Variables}

theorem prefix_of_trimStart (h : trim left = left) :
    trimStart (left ++ [' ']) <+: left ++ [' '] := by
  cases left with
  | nil => exact List.nil_prefix
  | cons c left =>
    have hc := (trim_eq_self_iff.1 h).1 c rfl
    have hkept : trimStart (c :: (left ++ [' '])) = c :: (left ++ [' ']) := by
      rw [trimStart, List.dropWhile_cons, hc, if_neg Bool.false_ne_true]
    exact hkept ▸ List.prefix_rfl

theorem not_negation_prefix_append (hleft : IsOperand left) (relation : Relation)
    (t : List Char) : ¬negationWord <+: trimStart (left ++ [' ']) ++ (relation.sign ++ t) := by
  intro h
  obtain ⟨c, rest, hsign, hc⟩ := relation.exists_sign_eq_cons
  have hletter : c ∉ negationWord := by
    rcases eq_of_mem_signCharacters hc with rfl | rfl | rfl | rfl <;> decide
  rw [hsign, List.cons_append] at h
  have hprefix := (prefix_of_prefix_append hletter h).trans (prefix_of_trimStart hleft.trimmed)
  exact hleft.plain (List.cons_prefix_cons.2 ⟨rfl, hprefix⟩)

/-- Two operands with a sign between them are one test, the comparison by this sign. -/
theorem readTrimmed_between (hleft : IsOperand left) (hright : IsOperand right)
    (relation : Relation) :
    Test.readTrimmed (trim (relation.between left right)) =
      .comparison relation (Test.readOperand left) (Test.readOperand right) := by
  have hs : ∀ c ∈ trimStart (left ++ [' ']), c ∉ signCharacters := by
    intro c hc
    rcases List.mem_append.1 ((List.dropWhile_sublist _).subset hc) with hmem | hmem
    · exact hleft.unsigned c hmem
    · rw [List.mem_singleton.1 hmem]
      decide
  have ht : ∀ c ∈ trimEnd (' ' :: right), c ∉ signCharacters := by
    intro c hc
    rcases List.mem_cons.1 ((List.rdropWhile_prefix isBlank _).subset hc) with rfl | hmem
    · decide
    · exact hright.unsigned c hmem
  have hleftOperand : Test.readOperand (trimStart (left ++ [' '])) = Test.readOperand left := by
    apply Test.readOperand_congr
    rw [trim_trimStart, trim_concat_of_blank (by decide)]
  have hrightOperand : Test.readOperand (trimEnd (' ' :: right)) = Test.readOperand right := by
    apply Test.readOperand_congr
    rw [trim_trimEnd, trim_cons_of_blank (by decide)]
  obtain ⟨c, rest, hsign, hc⟩ := relation.exists_sign_eq_cons
  rw [Relation.trim_between, Test.readTrimmed_of_not_prefix, readComparison?_append hs ht,
    Option.getD_some, hleftOperand, hrightOperand]
  · refine truth?_eq_none (List.mem_append_right _ (List.mem_append_left _ ?_)) hc
    rw [hsign]
    exact List.mem_cons_self
  · exact not_negation_prefix_append hleft relation _

/-- Two operands with a sign between them are compared by its relation. -/
theorem evaluate_between (hleft : IsOperand left) (hright : IsOperand right)
    (relation : Relation) (lookup : Variables) :
    evaluate lookup (.ofList (relation.between left right)) =
      (Test.order? (denoted lookup left) (denoted lookup right)).any relation.admits := by
  have hand : ∀ c ∈ conjunctionWord, c ∉ signCharacters := by
    simp [conjunctionWord, signCharacters]
  have hor : ∀ c ∈ disjunctionWord, c ∉ signCharacters := by
    simp [disjunctionWord, signCharacters]
  have hwithin := infix_trim (relation.between left right)
  have hconjunction : ¬conjunctionWord <:+: trim (relation.between left right) := by
    intro h
    exact Relation.not_spaced_infix_between ['a', 'n', 'd'] hand hleft.conjunction
      hright.conjunction (h.trans hwithin)
  have hdisjunction : ¬disjunctionWord <:+: trim (relation.between left right) := by
    intro h
    exact Relation.not_spaced_infix_between ['o', 'r'] hor hleft.disjunction
      hright.disjunction (h.trans hwithin)
  rw [evaluate_ofList, read, holds_readTrimmed (trim_trim _) hconjunction hdisjunction,
    readTrimmed_between hleft hright]
  rfl

/-- Of less, equal and greater exactly one holds between two operands, whatever they denote. The
opposite of a relation holds exactly if the relation does not, and the operands may change places if
the relation is turned round with them. -/
theorem existsUnique_evaluate_between (hleft : IsOperand left) (hright : IsOperand right)
    (lookup : Variables) :
    (∃! relation, relation ∈ [Relation.less, .equal, .greater] ∧
      evaluate lookup (.ofList (relation.between left right)) = true) ∧
    (∀ relation : Relation, evaluate lookup (.ofList (relation.opposite.between left right)) =
      !evaluate lookup (.ofList (relation.between left right))) ∧
    ∀ relation : Relation, evaluate lookup (.ofList (relation.converse.between right left)) =
      evaluate lookup (.ofList (relation.between left right)) := by
  obtain ⟨order, horder⟩ := Test.exists_order? (denoted lookup left) (denoted lookup right)
  have hevaluate : ∀ relation : Relation,
      evaluate lookup (.ofList (relation.between left right)) = relation.admits order := by
    intro relation
    rw [evaluate_between hleft hright, horder, Option.any_some]
  have hconverse : ∀ relation : Relation,
      evaluate lookup (.ofList (relation.between right left)) = relation.admits order.swap := by
    intro relation
    rw [evaluate_between hright hleft, Test.order?_swap (denoted lookup left), horder,
      Option.map_some, Option.any_some]
  simp only [hevaluate, hconverse]
  exact ⟨Relation.existsUnique_admits order, fun relation => relation.admits_opposite order,
    fun relation => relation.admits_converse_swap order⟩

theorem existsUnique_evaluate_between_score :
    IsOperand "score".toList ∧ IsOperand "10".toList ∧
      ∀ lookup, ∃! relation, relation ∈ [Relation.less, .equal, .greater] ∧
        evaluate lookup (.ofList (relation.between "score".toList "10".toList)) = true := by
  have hleft : IsOperand "score".toList := by decide +kernel
  have hright : IsOperand "10".toList := by decide +kernel
  exact ⟨hleft, hright, fun lookup => (existsUnique_evaluate_between hleft hright lookup).1⟩

/-- Operands that denote finite numbers are related as these. Others are related as the lower-case
forms of what they denote, equality and order alike, and so as what they denote if that is in lower
case. -/
theorem evaluate_between_iff (hleft : IsOperand left) (hright : IsOperand right)
    (relation : Relation) (lookup : Variables) :
    (∀ a b, Denotes (denoted lookup left).toList a → a.isFinite = true →
      Denotes (denoted lookup right).toList b → b.isFinite = true →
        ∃ x y, a.units? = some x ∧ b.units? = some y ∧
          (evaluate lookup (.ofList (relation.between left right)) = true ↔
            relation.Relates x y)) ∧
    (¬(IsFiniteNumeral (denoted lookup left).toList ∧
        IsFiniteNumeral (denoted lookup right).toList) →
      (evaluate lookup (.ofList (relation.between left right)) = true ↔
        relation.Relates (Test.foldCase (denoted lookup left))
          (Test.foldCase (denoted lookup right))) ∧
      (Test.foldCase (denoted lookup left) = denoted lookup left →
        Test.foldCase (denoted lookup right) = denoted lookup right →
          (evaluate lookup (.ofList (relation.between left right)) = true ↔
            relation.Relates (denoted lookup left) (denoted lookup right)))) := by
  rw [evaluate_between hleft hright]
  constructor
  · intro a b ha hafinite hb hbfinite
    obtain ⟨x, y, hx, hy, horder⟩ := Test.order?_of_denotes ha hafinite hb hbfinite
    refine ⟨x, y, hx, hy, ?_⟩
    rw [horder, Option.any_some, Relation.admits_compare_iff]
  · intro h
    rw [Test.order?_of_not_numerals h, Option.any_some, Relation.admits_compare_iff]
    refine ⟨Iff.rfl, fun hfoldLeft hfoldRight => ?_⟩
    rw [hfoldLeft, hfoldRight]

theorem evaluate_between_iff_unset :
    (IsOperand "9".toList ∧ IsOperand "10".toList ∧
      evaluate (fun _ => none) (.ofList (Relation.less.between "9".toList "10".toList)) = true) ∧
    IsOperand "apple".toList ∧ IsOperand "banana".toList ∧
      evaluate (fun _ => none)
        (.ofList (Relation.less.between "apple".toList "banana".toList)) = true := by
  have hnine : IsOperand "9".toList := by decide +kernel
  have hten : IsOperand "10".toList := by decide +kernel
  have happle : IsOperand "apple".toList := by decide +kernel
  have hbanana : IsOperand "banana".toList := by decide +kernel
  refine ⟨⟨hnine, hten, ?_⟩, happle, hbanana, ?_⟩
  · have hleft : Denotes (denoted (fun _ => none) "9".toList).toList
        (.finite false ⟨5066549580791808, 1025, by decide⟩) :=
      (Number.ofText?_eq_some_iff.1 (by decide +kernel)).1
    have hright : Denotes (denoted (fun _ => none) "10".toList).toList
        (.finite false ⟨5629499534213120, 1025, by decide⟩) :=
      (Number.ofText?_eq_some_iff.1 (by decide +kernel)).1
    obtain ⟨x, y, hx, hy, hiff⟩ :=
      (evaluate_between_iff hnine hten .less fun _ => none).1 _ _ hleft rfl hright rfl
    cases hx
    cases hy
    exact hiff.2 (by rw [Relation.Relates]; decide +kernel)
  · have hword : ¬IsFiniteNumeral (denoted (fun _ => none) "apple".toList).toList :=
      Number.ofText?_eq_none_iff.1 (by decide +kernel)
    have hiff := ((evaluate_between_iff happle hbanana .less fun _ => none).2 fun h => hword h.1).1
    exact hiff.2 (by rw [Relation.Relates]; decide +kernel)

/-- Texts that are no numbers can be less without being before in the order of characters. -/
theorem exists_evaluate_less_of_not_lt :
    ∃ left right, IsOperand left ∧ IsOperand right ∧
      ¬IsFiniteNumeral (denoted (fun _ => none) left).toList ∧
      evaluate (fun _ => none) (.ofList (Relation.less.between left right)) = true ∧
      ¬denoted (fun _ => none) left < denoted (fun _ => none) right := by
  have hleft : IsOperand ['a'] := by decide +kernel
  have hright : IsOperand ['B'] := by decide +kernel
  have hword : ¬IsFiniteNumeral (denoted (fun _ => none) ['a']).toList :=
    Number.ofText?_eq_none_iff.1 (by decide +kernel)
  refine ⟨['a'], ['B'], hleft, hright, hword, ?_, by decide +kernel⟩
  rw [evaluate_between hleft hright, Test.order?_of_not_numerals fun h => hword h.1]
  decide +kernel

end Condition

end StoryScript
