import StoryScript.Number.Rounding

/-! # Numerals

A numeral is an optional sign and digits with an optional point and optional exponent, at
least one digit standing beside the point; or a sign and the word for infinity. Reading
stops at the first character that cannot continue the numeral. A text is a number if it
is a numeral as a whole and the nearest number is finite.
-/

namespace StoryScript.Numeral

/-- The sign at the start of a text, `true` for minus, and the text after it. -/
def readSign : List Char → Bool × List Char
  | '-' :: s => (true, s)
  | '+' :: s => (false, s)
  | s => (false, s)

def readDigits (s : List Char) : List Char × List Char :=
  s.span Char.isDigit

def value (digits : List Char) : Nat :=
  digits.foldl (fun n c => 10 * n + (c.toNat - '0'.toNat)) 0

/-- The exponent at the start of a text, zero if there is none. A fault is what is left of
the text where a digit is missing. -/
def readExponent : List Char → Except (List Char) (Int × List Char)
  | [] => .ok (0, [])
  | c :: s =>
    if c = 'e' || c = 'E' then
      let (negative, t) := readSign s
      match readDigits t with
      | ([], _) => .error t
      | (digits, rest) => .ok (if negative then -(value digits : Int) else value digits, rest)
    else .ok (0, c :: s)

/-- The decimal with these digits before and after the point and the exponent that the
text begins with. -/
def readScaled (whole fraction s : List Char) : Except (List Char) (Decimal × List Char) :=
  match readExponent s with
  | .error fault => .error fault
  | .ok (exponent, rest) =>
    .ok (⟨value (whole ++ fraction), exponent - fraction.length⟩, rest)

def readDecimal : List Char → Except (List Char) (Decimal × List Char)
  | '.' :: s =>
    match readDigits s with
    | ([], _) => .error s
    | (fraction, rest) => readScaled [] fraction rest
  | s =>
    match readDigits s with
    | ([], _) => .error s
    | (whole, '.' :: rest) =>
      let (fraction, rest) := readDigits rest
      readScaled whole fraction rest
    | (whole, rest) => readScaled whole [] rest

/-- The text after the letters given, in either case, if it begins with them. -/
def afterLetters? : List Char → List Char → Option (List Char)
  | [], s => some s
  | _ :: _, [] => none
  | l :: letters, c :: s => if l = c.toLower then afterLetters? letters s else none

/-- The text after the word for infinity, which is written in full or cut after three
letters. -/
def afterInfinity? (s : List Char) : Option (List Char) :=
  (afterLetters? ['i', 'n', 'f'] s).map fun rest =>
    (afterLetters? ['i', 'n', 'i', 't', 'y'] rest).getD rest

/-- The number at the start of a text and the text after it. A fault is what is left of the
text where the numeral cannot go on. -/
def read (s : List Char) : Except (List Char) (Number × List Char) :=
  let (negative, t) := readSign s
  match afterInfinity? t with
  | some rest => .ok (.infinite negative, rest)
  | none =>
    match readDecimal t with
    | .error fault => .error fault
    | .ok (decimal, rest) => .ok (.withSign negative decimal.magnitude?, rest)

end StoryScript.Numeral

namespace StoryScript.Number

def ofText? (s : List Char) : Option Number :=
  match Numeral.read s with
  | .ok (n, []) => if n.isFinite then some n else none
  | _ => none

end StoryScript.Number
