import StoryScript.Document.Call
import StoryScript.Proofs.Document.Record

/-! # Calls read back

The document of a call holds the call again if and only if all numbers in its arguments are read
back, those of calls inside it included.
-/

namespace StoryScript

open Json

mutual

def Expr.numbers : Expr → List Number
  | .number x => [x]
  | .call _ args => Arg.numbersOf args
  | _ => []

/-- The numbers in arguments. -/
def Arg.numbersOf : List (Arg Expr) → List Number
  | [] => []
  | ⟨_, value⟩ :: args => value.numbers ++ Arg.numbersOf args

end

namespace Arg

theorem numbersOf_eq_flatMap (args : List (Arg Expr)) :
    numbersOf args = args.flatMap (·.value.numbers) := by
  induction args with
  | nil => rfl
  | cons arg args ih => rw [numbersOf, ih, List.flatMap_cons]

theorem listToJson_eq_map (args : List (Arg Expr)) : listToJson args = args.map toJson := by
  induction args with
  | nil => rfl
  | cons arg args ih => rw [listToJson, ih, List.map_cons]

theorem toJson_eq_record (arg : Arg Expr) :
    arg.toJson =
      .object (record ["name", "value"] [arg.keyword.map .text, some arg.value.toJson]) := by
  obtain ⟨keyword, value⟩ := arg
  cases keyword <;> rfl

variable {read : Json → Option Expr} {arg : Arg Expr}

theorem read?_reread :
    Arg.read? read arg.toJson.reread = some arg ↔
      read arg.value.toJson.reread = some arg.value := by
  obtain ⟨keyword, value⟩ := arg
  rw [Arg.read?, toJson_eq_record, fields?_reread_record _ _ rfl (by decide)]
  simp only [List.map_cons, List.map_nil, Option.bind_eq_bind, Option.bind_some, optional?_text,
    required?, Option.map_some]
  cases read value.toJson.reread <;> simp

theorem depth_value_lt (arg : Arg Expr) : arg.value.toJson.depth < arg.toJson.depth := by
  obtain ⟨keyword, value⟩ := arg
  cases keyword <;> simp [toJson, member?, depth, depthOfMembers]

end Arg

namespace Call

def numbers (call : Call) : List Number :=
  Arg.numbersOf call.args

theorem toJson_eq_record (call : Call) :
    call.toJson =
      .object (record ["name", "args"]
        [some (.text call.name), some (.array (call.args.map Arg.toJson))]) := by
  rw [toJson, Arg.listToJson_eq_map]
  rfl

variable {read : Json → Option Expr} {call : Call}

theorem read?_reread :
    Call.read? read call.toJson.reread = some call ↔
      ∀ arg ∈ call.args, read arg.value.toJson.reread = some arg.value := by
  have hargs := @listOrEmpty?_reread _ (Arg.read? read) Arg.toJson call.args
  simp only [Arg.read?_reread] at hargs
  obtain ⟨name, args⟩ := call
  rw [← hargs, Call.read?, toJson_eq_record, fields?_reread_record _ _ rfl (by decide)]
  simp only [List.map_cons, List.map_nil, Option.bind_eq_bind, Option.bind_some, required?,
    Option.map_some]
  generalize listOrEmpty? (Arg.read? read) _ = found
  cases found <;> simp [reread, asText?]

theorem depth_value_lt {arg : Arg Expr} (h : arg ∈ call.args) :
    arg.value.toJson.depth + 2 < call.toJson.depth := by
  have hitem := depthOfItems_le.1 (Nat.le_refl (depthOfItems (call.args.map Arg.toJson))) _
    (List.mem_map_of_mem h)
  have hvalue := arg.depth_value_lt
  have hcall : call.toJson.depth = depthOfItems (call.args.map Arg.toJson) + 2 := by
    simp [toJson, Arg.listToJson_eq_map, depth, depthOfMembers]
  omega

end Call

namespace Expr

theorem parts?_record (access : Access) (kind : String) (content : Json) :
    Expr.parts? access (.object [("kind", .text kind), ("value", content)]) =
      some (kind, content, access) := by
  cases access <;> rfl

/-- A value is read back if and only if its numbers are. -/
theorem readWithin_reread {depth : Nat} {access : Access} {value : Expr}
    (h : value.toJson.depth ≤ depth) :
    Expr.readWithin depth access value.toJson.reread = some value ↔
      ∀ x ∈ value.numbers, x.ReadsBack := by
  induction depth generalizing value with
  | zero => cases value <;> cases h
  | succ depth ih =>
    cases value with
    | text s =>
      have hparts : Expr.parts? access (toJson (.text s)).reread = some ("str", .text s, access) :=
        parts?_record ..
      rw [readWithin, hparts]
      exact ⟨fun _ => nofun, fun _ => rfl⟩
    | name s =>
      have hparts : Expr.parts? access (toJson (.name s)).reread = some ("name", .text s, access) :=
        parts?_record ..
      rw [readWithin, hparts]
      exact ⟨fun _ => nofun, fun _ => rfl⟩
    | number x =>
      have hparts : Expr.parts? access (toJson (.number x)).reread =
          some ("number", (Json.number x).reread, access) :=
        parts?_record ..
      rw [readWithin, hparts, numbers, List.forall_mem_singleton, Number.readsBack_iff]
      simp only [Option.bind_eq_bind, Option.bind_some]
      cases (Json.number x).reread.asNumber? <;> simp
    | call name args =>
      have hparts : Expr.parts? access (toJson (.call name args)).reread =
          some ("call", (Call.toJson ⟨name, args⟩).reread, access) :=
        parts?_record ..
      have hdepth : (Call.toJson ⟨name, args⟩).depth + 1 ≤ depth + 1 := by
        simpa [toJson, Json.depth, depthOfMembers, Call.toJson] using h
      have hargs : ∀ arg ∈ args, Expr.readWithin depth access arg.value.toJson.reread =
          some arg.value ↔ ∀ x ∈ arg.value.numbers, x.ReadsBack := by
        intro arg harg
        have hlt := @Call.depth_value_lt ⟨name, args⟩ arg harg
        exact ih (by omega)
      rw [readWithin, hparts, numbers, Arg.numbersOf_eq_flatMap, List.forall_mem_flatMap,
        ← forall₂_congr hargs, ← @Call.read?_reread _ ⟨name, args⟩]
      simp only [Option.bind_eq_bind, Option.bind_some]
      rcases Call.read? _ _ with _ | ⟨found, content⟩ <;> simp

end Expr

theorem Call.ofJson?_reread {access : Access} {call : Call} :
    Call.ofJson? access call.toJson.reread = some call ↔ ∀ x ∈ call.numbers, x.ReadsBack := by
  rw [Call.ofJson?, depth_reread, Call.read?_reread, Call.numbers, Arg.numbersOf_eq_flatMap,
    List.forall_mem_flatMap]
  refine forall₂_congr fun arg harg => Expr.readWithin_reread ?_
  have hlt := Call.depth_value_lt harg
  omega

mutual

theorem Expr.isReadable_reread (value : Expr) (h : ∀ x ∈ value.numbers, x.ReadsBack) :
    value.toJson.reread.isReadable = true := by
  cases value with
  | text s => rfl
  | name s => rfl
  | number x =>
    have hx := (h x (List.mem_singleton_self x)).isReadable
    rw [reread] at hx
    simp [Expr.toJson, reread, rereadMembers, isReadable, haveReadable, hx]
  | call name args =>
    have hargs := Arg.areReadable_reread args h
    simp [Expr.toJson, reread, rereadMembers, isReadable, haveReadable, hargs]

theorem Arg.areReadable_reread (args : List (Arg Expr))
    (h : ∀ x ∈ Arg.numbersOf args, x.ReadsBack) :
    areReadable (rereadItems (Arg.listToJson args)) = true := by
  match args with
  | [] => rfl
  | ⟨keyword, value⟩ :: args =>
    rw [Arg.numbersOf, List.forall_mem_append] at h
    have hvalue := Expr.isReadable_reread value h.1
    have hargs := Arg.areReadable_reread args h.2
    rw [Arg.listToJson, rereadItems, areReadable, hargs, Bool.and_true, Arg.toJson_eq_record]
    refine isReadable_reread_record ?_
    cases keyword <;> simp [hvalue, reread, isReadable]

end

theorem Call.isReadable_reread {call : Call} (h : ∀ x ∈ call.numbers, x.ReadsBack) :
    call.toJson.reread.isReadable = true := by
  have hargs := Arg.areReadable_reread call.args h
  simp [Call.toJson, reread, rereadMembers, isReadable, haveReadable, hargs]

end StoryScript
