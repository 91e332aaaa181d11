import StoryScript.Script.Line
import StoryScript.Script.Statement

/-! # Outlines

Indentation nests the lines of a script. A header opens a body, the first line in the body
fixes its indentation, and a later line closes the body if it is indented less than that or
no more than the header. A menu keeps its choices alone; that is decided only when the
outline is complete.
-/

namespace StoryScript.Script

/-- An entry of an outline: a command, or a header with the entries of its body, and the
number of the line that it stands on. -/
inductive Entry where
  | leaf (line : Nat) (command : Command)
  | node (line : Nat) (header : Header) (entries : List Entry)
deriving Repr

/-- A body while it is being read. Its entries are in reverse order. -/
structure Body where
  /-- The indentation of the first line in the body. -/
  indent : Option Int64
  entries : List Entry
  /-- The last speaker named in the body, who speaks blocks that name none. -/
  speaker : Option String
deriving Repr

/-- The header that opened a body. -/
structure Opener where
  line : Nat
  indent : Int64
  header : Header
deriving Repr

/-- An outline while it is being read: the innermost open body, and each header on the way
out with the body that it stands in. -/
structure Draft where
  body : Body
  enclosing : List (Opener × Body)
deriving Repr

namespace Body

def empty : Body := ⟨none, [], none⟩

def add (body : Body) (entry : Entry) : Body :=
  { body with entries := entry :: body.entries }

def touch (body : Body) (indent : Int64) : Body :=
  { body with indent := body.indent <|> some indent }

/-- Whether a line with the indentation given lies outside the body. -/
def endsAt (body : Body) (opener : Opener) (indent : Int64) : Bool :=
  body.indent.any (indent < ·) || indent ≤ opener.indent

def toEntry (body : Body) (opener : Opener) : Entry :=
  .node opener.line opener.header body.entries.reverse

end Body

namespace Draft

def empty : Draft := ⟨.empty, []⟩

/-- The outline with its innermost bodies closed as long as `ends` says so. -/
def closeWhile (ends : Body → Opener → Bool) : Body → List (Opener × Body) → Draft
  | body, [] => ⟨body, []⟩
  | body, (opener, parent) :: enclosing =>
    if ends body opener then closeWhile ends (parent.add (body.toEntry opener)) enclosing
    else ⟨body, (opener, parent) :: enclosing⟩

def enter (draft : Draft) (indent : Int64) : Draft :=
  let draft := closeWhile (·.endsAt · indent) draft.body draft.enclosing
  { draft with body := draft.body.touch indent }

def add (draft : Draft) (entry : Entry) : Draft :=
  { draft with body := draft.body.add entry }

def speak (draft : Draft) (line : Nat) (speaker : Option String) (text : String) : Draft :=
  draft.add (.leaf line (.dialogue speaker text))

def name (draft : Draft) (speaker : Option String) : Draft :=
  { draft with body := { draft.body with speaker := speaker <|> draft.body.speaker } }

def openBody (draft : Draft) (opener : Opener) : Draft :=
  ⟨.empty, (opener, draft.body) :: draft.enclosing⟩

def inMenu (draft : Draft) : Bool :=
  match draft.enclosing with
  | (opener, _) :: _ => opener.header == .menu
  | [] => false

end Draft

/-- What a structural line adds to an outline. -/
inductive Item where
  | statement (statement : Statement)
  | block (speaker : Option String) (text : String)
deriving Repr

namespace Draft

/-- The outline with one more structural line, at an indentation relative to the first. -/
def place (draft : Draft) (line : Nat) (indent : Int64) (item : Item) : Draft :=
  let draft := draft.enter indent
  match item with
  | .block speaker text =>
    let draft := draft.name speaker
    draft.speak line draft.body.speaker text
  | .statement .ignored => draft
  | .statement (.simple (.dialogue speaker text)) =>
    (draft.name speaker).speak line speaker text
  | .statement (.simple command) => draft.add (.leaf line command)
  | .statement (.header header) => draft.openBody ⟨line, indent, header⟩
  | .statement (.prompt text) =>
    if draft.inMenu then draft.openBody ⟨line, indent, .choice text⟩
    else draft.speak line none text

def entries (draft : Draft) : List Entry :=
  (closeWhile (fun _ _ => true) draft.body draft.enclosing).body.entries.reverse

end Draft

/-- The entries of structural lines and what they add. Indentation is relative to the first
of them. -/
def outline (items : List (Line × Item)) : List Entry :=
  match items with
  | [] => []
  | (first, _) :: _ =>
    (items.foldl (fun draft (line, item) =>
      draft.place line.number (line.indent - first.indent) item) Draft.empty).entries

namespace Entry

mutual

def toCommand : Entry → Command
  | .leaf _ command => command
  | .node _ (.label name) entries => .label name (toCommands entries)
  | .node _ .menu entries => .menu (toChoices entries)
  | .node _ (.choice prompt) entries => .strayChoice ⟨prompt, toCommands entries⟩
  | .node _ (.ifBranch condition) entries => .ifBranch condition (toCommands entries)
  | .node _ (.elifBranch condition) entries => .elifBranch condition (toCommands entries)
  | .node _ .elseBranch entries => .elseBranch (toCommands entries)

def toCommands : List Entry → List Command
  | [] => []
  | entry :: entries => entry.toCommand :: toCommands entries

def toChoices : List Entry → List (Choice Command)
  | [] => []
  | .node _ (.choice prompt) body :: entries => ⟨prompt, toCommands body⟩ :: toChoices entries
  | _ :: entries => toChoices entries

end

end Entry

end StoryScript.Script
