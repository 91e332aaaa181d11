import StoryScript.Document.Command
import StoryScript.Proofs.Document.Call

/-! # Commands read back

The document of a command holds the command again if and only if all numbers in it are read back:
its own, those of its definition and those of the commands inside it.
-/

namespace StoryScript

open Json

namespace Command

mutual

def numbers : Command → List Number
  | .label _ body => numbersOf body
  | .menu choices => numbersOfChoices choices
  | .strayChoice choice => numbersOfChoice choice
  | .ifBranch _ body => numbersOf body
  | .elifBranch _ body => numbersOf body
  | .elseBranch body => numbersOf body
  | .define _ _ definition => definition.elim [] Call.numbers
  | .playMusic _ fadeIn => fadeIn.toList
  | .stopMusic fadeOut => fadeOut.toList
  | .pause duration => duration.toList
  | _ => []

def numbersOf : List Command → List Number
  | [] => []
  | command :: commands => command.numbers ++ numbersOf commands

def numbersOfChoice : Choice Command → List Number
  | ⟨_, body⟩ => numbersOf body

def numbersOfChoices : List (Choice Command) → List Number
  | [] => []
  | choice :: choices => numbersOfChoice choice ++ numbersOfChoices choices

end

theorem numbersOf_eq_flatMap (commands : List Command) :
    numbersOf commands = commands.flatMap numbers := by
  induction commands with
  | nil => rfl
  | cons command commands ih => rw [numbersOf, ih, List.flatMap_cons]

theorem numbersOfChoice_eq_flatMap (choice : Choice Command) :
    numbersOfChoice choice = choice.body.flatMap numbers := by
  obtain ⟨prompt, body⟩ := choice
  rw [numbersOfChoice, numbersOf_eq_flatMap]

theorem numbersOfChoices_eq_flatMap (choices : List (Choice Command)) :
    numbersOfChoices choices = choices.flatMap numbersOfChoice := by
  induction choices with
  | nil => rfl
  | cons choice choices ih => rw [numbersOfChoices, ih, List.flatMap_cons]

theorem listToJson_eq_map (commands : List Command) :
    listToJson commands = commands.map toJson := by
  induction commands with
  | nil => rfl
  | cons command commands ih => rw [listToJson, ih, List.map_cons]

/-- The document of a choice. -/
def choiceToJson (choice : Choice Command) : Json :=
  .object (choiceMembers choice)

theorem choiceToJson_eq_record (choice : Choice Command) :
    choiceToJson choice =
      .object (record ["text", "commands"]
        [some (.text choice.prompt), some (.array (choice.body.map toJson))]) := by
  rw [choiceToJson, choiceMembers, listToJson_eq_map]
  rfl

theorem choicesToJson_eq_map (choices : List (Choice Command)) :
    choicesToJson choices = choices.map choiceToJson := by
  induction choices with
  | nil => rfl
  | cons choice choices ih => rw [choicesToJson, ih, List.map_cons, choiceToJson]

def fields : Command → List String × List (Option Json)
  | .label name body =>
    (["name", "commands"], [some (.text name), some (.array (body.map toJson))])
  | .scene image transition =>
    (["image", "transition"], [some (.text image), transition.map .text])
  | .dialogue speaker line => (["speaker", "text"], [speaker.map .text, some (.text line)])
  | .menu choices => (["choices"], [some (.array (choices.map choiceToJson))])
  | .strayChoice choice =>
    (["text", "commands"], [some (.text choice.prompt), some (.array (choice.body.map toJson))])
  | .ifBranch condition body =>
    (["condition", "commands"], [some (.text condition), some (.array (body.map toJson))])
  | .elifBranch condition body =>
    (["condition", "commands"], [some (.text condition), some (.array (body.map toJson))])
  | .elseBranch body => (["commands"], [some (.array (body.map toJson))])
  | .define name value definition =>
    (["name", "value", "definition"],
      [some (.text name), some (.text value), definition.map Call.toJson])
  | .playMusic file fadeIn => (["file", "fade_in"], [some (.text file), fadeIn.map .number])
  | .stopMusic fadeOut => (["fade_out"], [fadeOut.map .number])
  | .showImage image position transition =>
    (["image", "position", "transition"],
      [some (.text image), position.map .text, transition.map .text])
  | .hideImage image transition =>
    (["image", "transition"], [some (.text image), transition.map .text])
  | .pause duration => (["duration"], [duration.map .number])
  | .jump target => (["label"], [some (.text target)])
  | .finish => ([], [])
  | .unsupported => ([], [])

theorem toJson_eq_record (command : Command) :
    command.toJson =
      .object (("type", .text command.kind) :: record command.fields.1 command.fields.2) := by
  cases command with
  | label name body => rw [toJson, listToJson_eq_map]; rfl
  | menu choices => rw [toJson, choicesToJson_eq_map]; rfl
  | strayChoice choice => rw [toJson, choiceMembers, listToJson_eq_map]; rfl
  | ifBranch condition body => rw [toJson, listToJson_eq_map]; rfl
  | elifBranch condition body => rw [toJson, listToJson_eq_map]; rfl
  | elseBranch body => rw [toJson, listToJson_eq_map]; rfl
  | scene image transition => cases transition <;> rfl
  | dialogue speaker line => cases speaker <;> rfl
  | define name value definition => cases definition <;> rfl
  | playMusic file fadeIn => cases fadeIn <;> rfl
  | stopMusic fadeOut => cases fadeOut <;> rfl
  | showImage image position transition => cases position <;> cases transition <;> rfl
  | hideImage image transition => cases transition <;> rfl
  | pause duration => cases duration <;> rfl
  | jump target => rfl
  | finish => rfl
  | unsupported => rfl

theorem nodup_fields (command : Command) : ("type" :: command.fields.1).Nodup := by
  cases command <;> (simp only [fields]; decide)

theorem length_fields (command : Command) :
    command.fields.1.length = command.fields.2.length := by
  cases command <;> rfl

def rereadFields (command : Command) : Json :=
  reread (.object (record command.fields.1 command.fields.2))

theorem fields?_rereadFields (command : Command) :
    fields? command.fields.1 command.rereadFields = some (command.fields.2.map (·.map reread)) :=
  fields?_reread_record _ _ command.length_fields (List.nodup_cons.1 command.nodup_fields).2

theorem readWithin_succ (depth : Nat) (access : Access) (command : Command) :
    readWithin (depth + 1) access command.toJson.reread =
      read? (readWithin depth .kept) command.kind command.rereadFields := by
  rw [readWithin, toJson_eq_record, reread, rereadMembers, rereadMembers_record,
    tagged?_record (List.nodup_cons.1 command.nodup_fields).1, rereadFields, reread,
    rereadMembers_record]
  rfl

variable {depth : Nat} {read : Json → Option Command}

theorem bind_some_iff {α β : Type} {f : α → β} (hf : ∀ a b, f a = f b → a = b) {o : Option α}
    {a : α} : (o.bind fun a => some (f a)) = some (f a) ↔ o = some a := by
  cases o with
  | none => exact ⟨nofun, nofun⟩
  | some b => simpa using ⟨hf b a, congrArg f⟩

theorem choiceRead?_reread {choice : Choice Command} :
    Choice.read? read (choiceToJson choice).reread = some choice ↔
      ∀ command ∈ choice.body, read command.toJson.reread = some command := by
  obtain ⟨prompt, body⟩ := choice
  rw [Choice.read?, choiceToJson_eq_record, fields?_reread_record _ _ rfl (by decide)]
  simp only [List.map_cons, List.map_nil, Option.bind_eq_bind, Option.bind_some, required?,
    Option.map_some, asText?_reread, Option.pure_def]
  exact (bind_some_iff (by simp)).trans listOrEmpty?_reread

/-- The numbers in a command that are not in a command inside it. -/
def ownNumbers : Command → List Number
  | .define _ _ definition => definition.elim [] Call.numbers
  | .playMusic _ fadeIn => fadeIn.toList
  | .stopMusic fadeOut => fadeOut.toList
  | .pause duration => duration.toList
  | _ => []

/-- The commands that stand directly in a body of a command. -/
def inner : Command → List Command
  | .label _ body => body
  | .menu choices => choices.flatMap (·.body)
  | .strayChoice choice => choice.body
  | .ifBranch _ body => body
  | .elifBranch _ body => body
  | .elseBranch body => body
  | _ => []

theorem numbers_eq_append (command : Command) :
    command.numbers = command.ownNumbers ++ numbersOf command.inner := by
  cases command with
  | menu choices =>
    simp only [numbers, ownNumbers, inner, List.nil_append, numbersOfChoices_eq_flatMap,
      numbersOf_eq_flatMap, List.flatMap_assoc]
    exact congrArg choices.flatMap (funext numbersOfChoice_eq_flatMap)
  | strayChoice choice =>
    simp only [numbers, ownNumbers, inner, numbersOfChoice_eq_flatMap, numbersOf_eq_flatMap,
      List.nil_append]
  | _ => simp [numbers, ownNumbers, inner, numbersOf]

/-- A command is read back if its own numbers and the commands inside it are. -/
theorem read?_rereadFields (command : Command) :
    read? read command.kind command.rereadFields = some command ↔
      (∀ x ∈ command.ownNumbers, x.ReadsBack) ∧
        ∀ c ∈ command.inner, read c.toJson.reread = some c := by
  have hfields := fields?_rereadFields command
  cases command <;> simp only [fields, List.map_cons, List.map_nil, Option.map_some] at hfields <;>
    simp only [kind, read?, hfields, Option.bind_eq_bind, Option.bind_some, required?,
      optional?_text, asText?_reread, ownNumbers, inner, List.not_mem_nil, false_imp_iff,
      implies_true, true_and, and_true, Option.pure_def]
  case label name body =>
    exact (bind_some_iff (by simp)).trans listOrEmpty?_reread
  case ifBranch condition body =>
    exact (bind_some_iff (by simp)).trans listOrEmpty?_reread
  case elifBranch condition body =>
    exact (bind_some_iff (by simp)).trans listOrEmpty?_reread
  case elseBranch body =>
    exact (bind_some_iff (by simp)).trans listOrEmpty?_reread
  case menu choices =>
    refine (bind_some_iff (by simp)).trans (listOrEmpty?_reread.trans ?_)
    simp only [choiceRead?_reread, List.forall_mem_flatMap]
  case strayChoice choice =>
    rw [← choiceRead?_reread, choiceToJson_eq_record, rereadFields, fields]
    rcases Choice.read? _ _ with _ | found <;> simp
  case define name value definition =>
    refine (bind_some_iff (by simp)).trans ((optional?_reread rfl).trans ?_)
    simp only [Call.ofJson?_reread]
    cases definition <;> simp
  case playMusic file fadeIn =>
    exact (bind_some_iff (by simp)).trans (Number.optional?_number.trans (by simp))
  case stopMusic fadeOut =>
    exact (bind_some_iff (by simp)).trans (Number.optional?_number.trans (by simp))
  case pause duration =>
    exact (bind_some_iff (by simp)).trans (Number.optional?_number.trans (by simp))
  case finish => exact ⟨fun _ => trivial, fun _ => rfl⟩
  case unsupported => exact ⟨fun _ => trivial, fun _ => rfl⟩

theorem depth_le_depthOfItems {command : Command} {body : List Command} (h : command ∈ body) :
    command.toJson.depth ≤ depthOfItems (body.map toJson) :=
  depthOfItems_le.1 (Nat.le_refl _) _ (List.mem_map_of_mem h)

theorem depth_inner_lt {command inside : Command} (h : inside ∈ command.inner) :
    inside.toJson.depth < command.toJson.depth := by
  cases command with
  | menu choices =>
    obtain ⟨choice, hchoice, hinside⟩ := List.mem_flatMap.1 h
    have hle := depth_le_depthOfItems hinside
    have hlist := depthOfItems_le.1 (Nat.le_refl (depthOfItems (choices.map choiceToJson))) _
      (List.mem_map_of_mem hchoice)
    rw [choiceToJson_eq_record] at hlist
    simp only [record, depth, depthOfMembers] at hlist
    simp only [toJson, depth, depthOfMembers, choicesToJson_eq_map]
    omega
  | strayChoice choice =>
    obtain ⟨prompt, body⟩ := choice
    have hle := @depth_le_depthOfItems inside body h
    simp only [toJson, choiceMembers, depth, depthOfMembers, listToJson_eq_map]
    omega
  | label _ body | ifBranch _ body | elifBranch _ body | elseBranch body =>
    have hle := @depth_le_depthOfItems inside body h
    simp only [toJson, depth, depthOfMembers, listToJson_eq_map]
    omega
  | _ => cases h

theorem depth_toJson_pos (command : Command) : 0 < command.toJson.depth := by
  rw [toJson_eq_record]
  exact Nat.succ_pos _

/-- A command is read back if and only if all numbers in it are. -/
theorem readWithin_reread {access : Access} {command : Command}
    (h : command.toJson.depth ≤ depth) :
    readWithin depth access command.toJson.reread = some command ↔
      ∀ x ∈ command.numbers, x.ReadsBack := by
  induction depth generalizing access command with
  | zero => exact absurd command.depth_toJson_pos (Nat.not_lt.2 h)
  | succ depth ih =>
    rw [readWithin_succ, read?_rereadFields, numbers_eq_append, List.forall_mem_append,
      numbersOf_eq_flatMap, List.forall_mem_flatMap]
    refine and_congr_right fun _ => forall₂_congr fun inside hinside => ih ?_
    have hlt := depth_inner_lt hinside
    omega

theorem isReadable_toJson (command : Command) :
    command.toJson.reread.isReadable = command.rereadFields.isReadable := by
  rw [toJson_eq_record, rereadFields, reread, reread, rereadMembers, isReadable, isReadable,
    haveReadable]
  rfl

/-- The fields of a command are readable if its own numbers and the commands inside it are. -/
theorem isReadable_rereadFields {command : Command}
    (hown : ∀ x ∈ command.ownNumbers, x.ReadsBack)
    (hinner : ∀ c ∈ command.inner, c.toJson.reread.isReadable = true) :
    command.rereadFields.isReadable = true := by
  refine isReadable_reread_record ?_
  have htext (s : String) : (Json.text s).reread.isReadable = true := rfl
  cases command with
  | menu choices =>
    have hchoice : ∀ choice ∈ choices, (choiceToJson choice).reread.isReadable = true := by
      intro choice hchoice
      rw [choiceToJson_eq_record]
      refine isReadable_reread_record ?_
      have hbody : ∀ c ∈ choice.body, c.toJson.reread.isReadable = true := fun c hc =>
        hinner c (List.mem_flatMap_of_mem hchoice hc)
      simpa [htext, isReadable_reread_array] using hbody
    simpa [fields, isReadable_reread_array] using hchoice
  | label _ body | ifBranch _ body | elifBranch _ body | elseBranch body | strayChoice choice =>
    simpa [fields, inner, htext, isReadable_reread_array] using hinner
  | playMusic _ value | stopMusic value | pause value =>
    have hvalue : ∀ x ∈ value, (Json.number x).reread.isReadable = true := fun x hx =>
      (hown x (Option.mem_toList.2 hx)).isReadable
    simpa [fields, htext] using hvalue
  | define name value definition =>
    have hcall : ∀ call ∈ definition, call.toJson.reread.isReadable = true := by
      rintro call rfl
      exact Call.isReadable_reread hown
    simpa [fields, htext] using hcall
  | scene | dialogue | showImage | hideImage | jump | finish | unsupported => simp [fields, htext]

theorem isReadable_reread {command : Command} (h : ∀ x ∈ command.numbers, x.ReadsBack) :
    command.toJson.reread.isReadable = true := by
  generalize hdepth : command.toJson.depth = depth
  induction depth using Nat.strongRecOn generalizing command with
  | ind depth ih =>
    rw [numbers_eq_append, List.forall_mem_append, numbersOf_eq_flatMap,
      List.forall_mem_flatMap] at h
    rw [isReadable_toJson]
    refine isReadable_rereadFields h.1 fun inside hinside => ?_
    exact ih _ (hdepth ▸ depth_inner_lt hinside) (h.2 inside hinside) rfl

end Command

theorem scriptToJson_eq_array (script : List Command) :
    scriptToJson script = .array (script.map Command.toJson) := by
  rw [scriptToJson, Command.listToJson_eq_map]

/-- A script is read back from its document if and only if all its numbers are. -/
theorem scriptOfJson?_reread {script : List Command} :
    scriptOfJson? (scriptToJson script).reread = some script ↔
      ∀ x ∈ Command.numbersOf script, x.ReadsBack := by
  rw [scriptOfJson?, depth_reread, Command.numbersOf_eq_flatMap, List.forall_mem_flatMap,
    scriptToJson_eq_array]
  refine listOrEmpty?_reread.trans (forall₂_congr fun command hcommand => ?_)
  exact Command.readWithin_reread
    (Nat.le_trans (Command.depth_le_depthOfItems hcommand) (Nat.le_succ _))

end StoryScript
