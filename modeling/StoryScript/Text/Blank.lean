import StoryScript.Text.CodePoints

/-! # Blanks

A blank is a character with the property White_Space. Trimming removes the blanks
at the ends of a text and leaves those inside it.
-/

namespace StoryScript.Text

/-- The code points with the property White_Space. -/
def blanks : CodePoints :=
  [(9, 0xD), (0x20, 0x20), (0x85, 0x85), (0xA0, 0xA0), (0x1680, 0x1680), (0x2000, 0x200A),
   (0x2028, 0x2029), (0x202F, 0x202F), (0x205F, 0x205F), (0x3000, 0x3000)]

def isBlank (c : Char) : Bool :=
  blanks.has c

def trimStart (s : List Char) : List Char :=
  s.dropWhile isBlank

def dropEndWhile (p : Char → Bool) (s : List Char) : List Char :=
  (s.reverse.dropWhile p).reverse

def trimEnd (s : List Char) : List Char :=
  dropEndWhile isBlank s

def trim (s : List Char) : List Char :=
  trimEnd (trimStart s)

@[simp] theorem trim_nil : trim [] = [] := rfl

end StoryScript.Text
