import StoryScript.Json.Basic
import StoryScript.Number.Layout

/-! # Writing documents

The compact layout has no blanks. The indented layout puts every item and member on a line
of its own, two spaces deeper than the array or object around it; empty arrays and objects
stay on one line. Numbers that are not finite are written as null, and so is what is
unreadable.
-/

namespace StoryScript.Json

inductive Style where
  | compact
  | indented
deriving DecidableEq, Repr

/-- The four hexadecimal digits of an escaped control character. -/
def hexDigits (n : Nat) : List Char :=
  let digits := Nat.toDigits 16 n
  List.replicate (4 - digits.length) '0' ++ digits

def writeChar (c : Char) : List Char :=
  match c with
  | '"' => ['\\', '"']
  | '\\' => ['\\', '\\']
  | '\n' => ['\\', 'n']
  | '\r' => ['\\', 'r']
  | '\t' => ['\\', 't']
  | '\x08' => ['\\', 'b']
  | '\x0c' => ['\\', 'f']
  | c => if c.toNat < 32 then '\\' :: 'u' :: hexDigits c.toNat else [c]

def writeText (s : String) (rest : List Char) : List Char :=
  '"' :: (s.toList.flatMap writeChar ++ '"' :: rest)

def writeInteger (n : Int) : List Char :=
  Number.sign (n < 0) ++ Nat.toDigits 10 n.natAbs

/-- The start of a line at a nesting level, nothing in the compact layout. -/
def Style.newline (style : Style) (level : Nat) : List Char :=
  match style with
  | .compact => []
  | .indented => '\n' :: List.replicate (2 * level) ' '

def Style.colon (style : Style) : List Char :=
  match style with
  | .compact => [':']
  | .indented => [':', ' ']

mutual

/-- The text of a document that stands at a nesting level, followed by the text given. -/
def write (style : Style) (level : Nat) : Json → List Char → List Char
  | .null, rest | .unreadable, rest => 'n' :: 'u' :: 'l' :: 'l' :: rest
  | .bool true, rest => 't' :: 'r' :: 'u' :: 'e' :: rest
  | .bool false, rest => 'f' :: 'a' :: 'l' :: 's' :: 'e' :: rest
  | .integer n, rest => writeInteger n ++ rest
  | .number x, rest => x.document?.getD ['n', 'u', 'l', 'l'] ++ rest
  | .text s, rest => writeText s rest
  | .array [], rest => '[' :: ']' :: rest
  | .array (item :: items), rest =>
    '[' :: (style.newline (level + 1) ++
      write style (level + 1) item (writeItems style level items rest))
  | .object [], rest => '\x7b' :: '\x7d' :: rest
  | .object ((key, value) :: members), rest =>
    '\x7b' :: (style.newline (level + 1) ++ writeText key (style.colon ++
      write style (level + 1) value (writeMembers style level members rest)))

/-- The later items of an array and its end, followed by the text given. -/
def writeItems (style : Style) (level : Nat) : List Json → List Char → List Char
  | [], rest => style.newline level ++ ']' :: rest
  | item :: items, rest =>
    ',' :: (style.newline (level + 1) ++
      write style (level + 1) item (writeItems style level items rest))

/-- The later members of an object and its end, followed by the text given. -/
def writeMembers (style : Style) (level : Nat) :
    List (String × Json) → List Char → List Char
  | [], rest => style.newline level ++ '\x7d' :: rest
  | (key, value) :: members, rest =>
    ',' :: (style.newline (level + 1) ++ writeText key (style.colon ++
      write style (level + 1) value (writeMembers style level members rest)))

end

def compact (document : Json) : String :=
  .ofList (document.write .compact 0 [])

def indented (document : Json) : String :=
  .ofList (document.write .indented 0 [])

end StoryScript.Json
