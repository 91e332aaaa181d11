import StoryScript.Text.Blank
import StoryScript.Text.Cut
import StoryScript.Text.Lines

/-! # Structural lines

A script is a list of structural lines. A line that is blank or a comment is not structural,
and neither are the lines that continue a triple-quoted block: the block belongs to the line
that opens it, and nothing inside it is read as a statement.
-/

namespace StoryScript.Script

open Text

inductive Content where
  /-- A statement, without the blanks around it. -/
  | statement (text : List Char)
  /-- A triple-quoted text and what stands before it on its first line. -/
  | block (speaker : Option (List Char)) (text : List Char)
deriving DecidableEq, Repr

/-- A structural line: its number in the script, its indentation and its content. -/
structure Line where
  number : Nat
  indent : Int64
  content : Content
deriving DecidableEq, Repr

/-- A block whose end has not been reached. The lines read so far are in reverse order. -/
structure OpenBlock where
  number : Nat
  indent : Int64
  speaker : Option (List Char)
  delimiter : List Char
  /-- The line that opens the block, without the blanks around it. -/
  opening : List Char
  collected : List (List Char)
deriving DecidableEq, Repr

/-- The width of the blanks at the start of a line, in words of 64 bits. A tab counts for
the width given and any other blank for one. -/
def measureIndent (tabWidth : UInt64) (line : List Char) : Int64 :=
  ((line.takeWhile isBlank).foldl
    (fun width c => width + if c = '\t' then tabWidth else 1) (0 : UInt64)).toInt64

def delimiters : List (List Char) :=
  [['"', '"', '"'], ['\'', '\'', '\'']]

/-- The first delimiter in a line, with what stands before and after it. -/
def cutAtDelimiter? (line : List Char) : Option (List Char × List Char × List Char) :=
  delimiters.foldl
    (fun found delimiter =>
      match found, cut? delimiter line with
      | some (d, before, rest), some (before', rest') =>
        if before'.length < before.length then some (delimiter, before', rest')
        else some (d, before, rest)
      | none, some (before, rest) => some (delimiter, before, rest)
      | found, none => found)
    none

def nonBlank? (s : List Char) : Option (List Char) :=
  let trimmed := trim s
  if trimmed.isEmpty then none else some trimmed

namespace OpenBlock

/-- The structural line of a block whose last line, up to the delimiter, is given. -/
def close (block : OpenBlock) (last : List Char) : Line :=
  ⟨block.number, block.indent,
    .block block.speaker (trim (['\n'].intercalate (last :: block.collected).reverse))⟩

def extend (block : OpenBlock) (line : List Char) : OpenBlock :=
  { block with collected := line :: block.collected }

end OpenBlock

inductive Opening where
  /-- The line is blank or a comment. -/
  | skipped
  | complete (line : Line)
  | unfinished (block : OpenBlock)
deriving DecidableEq, Repr

def openLine (tabWidth : UInt64) (number : Nat) (line : List Char) : Opening :=
  let text := trim line
  if text.isEmpty || text.head? == some '#' then .skipped
  else
    let indent := measureIndent tabWidth line
    match cutAtDelimiter? text with
    | none => .complete ⟨number, indent, .statement text⟩
    | some (delimiter, before, rest) =>
      match cut? delimiter rest with
      | some (inside, _) => .complete ⟨number, indent, .block (nonBlank? before) (trim inside)⟩
      | none => .unfinished ⟨number, indent, nonBlank? before, delimiter, text, [trim rest]⟩

/-- The structural lines of the lines numbered from `number` on, and the block that is
still open at their end. The first argument is the block that is open before them. -/
def structuralFrom (tabWidth : UInt64) :
    Option OpenBlock → Nat → List (List Char) → List Line × Option OpenBlock
  | block?, _, [] => ([], block?)
  | some block, number, line :: lines =>
    match cut? block.delimiter line with
    | some (last, _) =>
      let (later, unclosed) := structuralFrom tabWidth none (number + 1) lines
      (block.close last :: later, unclosed)
    | none => structuralFrom tabWidth (some (block.extend line)) (number + 1) lines
  | none, number, line :: lines =>
    match openLine tabWidth number line with
    | .skipped => structuralFrom tabWidth none (number + 1) lines
    | .complete found =>
      let (later, unclosed) := structuralFrom tabWidth none (number + 1) lines
      (found :: later, unclosed)
    | .unfinished block => structuralFrom tabWidth (some block) (number + 1) lines

/-- The structural lines of a script and the block that is still open at its end. -/
def structural (tabWidth : UInt64) (text : List Char) : List Line × Option OpenBlock :=
  structuralFrom tabWidth none 1 (lines text)

end StoryScript.Script
