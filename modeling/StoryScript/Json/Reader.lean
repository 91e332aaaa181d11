import StoryScript.Json.Basic
import StoryScript.Number.Scaling

/-! # Reading documents

A document is a text that is well-formed JSON: no byte order mark, no raw control character
in a text, no leading zero, no trailing comma. What is well formed and denotes no value is
unreadable: a number beyond the range, half of a surrogate pair, and an array or object that
stands inside 127 others. A reader of a part returns the part and the text after it; its fuel
is at least the length of the text.
-/

namespace StoryScript.Json

/-- How many arrays and objects may stand inside one another and be readable. -/
def depthLimit : Nat := 127

def skipBlanks (s : List Char) : List Char :=
  s.dropWhile fun c => c == ' ' || c == '\n' || c == '\t' || c == '\r'

def hexValue? (c : Char) : Option Nat :=
  if '0' ≤ c ∧ c ≤ '9' then some (c.toNat - '0'.toNat)
  else if 'a' ≤ c ∧ c ≤ 'f' then some (c.toNat - 'a'.toNat + 10)
  else if 'A' ≤ c ∧ c ≤ 'F' then some (c.toNat - 'A'.toNat + 10)
  else none

def readUnit? : List Char → Option (Nat × List Char)
  | a :: b :: c :: d :: s =>
    match hexValue? a, hexValue? b, hexValue? c, hexValue? d with
    | some a, some b, some c, some d => some (((a * 16 + b) * 16 + c) * 16 + d, s)
    | _, _, _, _ => none
  | _ => none

/-- A piece of a text between quotes: a character, or the code unit of an escape. -/
inductive TextUnit where
  | char (value : Char)
  | code (unit : Nat)
deriving DecidableEq, Repr

def isHighSurrogate (unit : Nat) : Bool :=
  0xD800 ≤ unit && unit < 0xDC00

def isLowSurrogate (unit : Nat) : Bool :=
  0xDC00 ≤ unit && unit < 0xE000

def joinSurrogates (high low : Nat) : Char :=
  .ofNat (0x10000 + (high - 0xD800) * 0x400 + (low - 0xDC00))

/-- The characters that units denote, unless half of a surrogate pair stands alone. -/
def joinUnits? : List TextUnit → Option (List Char)
  | [] => some []
  | .char c :: units => (joinUnits? units).map (c :: ·)
  | .code unit :: units =>
    if isHighSurrogate unit then
      match units with
      | .code low :: units =>
        if isLowSurrogate low then (joinUnits? units).map (joinSurrogates unit low :: ·) else none
      | _ => none
    else if isLowSurrogate unit then none
    else (joinUnits? units).map (.ofNat unit :: ·)

def readEscape? : List Char → Option (TextUnit × List Char)
  | '"' :: s => some (.char '"', s)
  | '\\' :: s => some (.char '\\', s)
  | '/' :: s => some (.char '/', s)
  | 'b' :: s => some (.char '\x08', s)
  | 'f' :: s => some (.char '\x0c', s)
  | 'n' :: s => some (.char '\n', s)
  | 'r' :: s => some (.char '\r', s)
  | 't' :: s => some (.char '\t', s)
  | 'u' :: s => (readUnit? s).map fun (unit, rest) => (.code unit, rest)
  | _ => none

/-- The units of a text up to its closing quote. At most `fuel` units are read. -/
def readUnitsWithin : Nat → List Char → Option (List TextUnit × List Char)
  | 0, _ => none
  | _, [] => none
  | _ + 1, '"' :: s => some ([], s)
  | fuel + 1, '\\' :: s =>
    match readEscape? s with
    | none => none
    | some (unit, rest) =>
      (readUnitsWithin fuel rest).map fun (units, rest) => (unit :: units, rest)
  | fuel + 1, c :: s =>
    if c.toNat < 32 then none
    else (readUnitsWithin fuel s).map fun (units, rest) => (.char c :: units, rest)

/-- The text whose opening quote has been read, if its units denote one. -/
def readText? (fuel : Nat) (s : List Char) : Option (Option String × List Char) :=
  (readUnitsWithin fuel s).map fun (units, rest) => ((joinUnits? units).map .ofList, rest)

/-- The digits of a whole number; more than one do not begin with zero. -/
def readWhole? (s : List Char) : Option (List Char × List Char) :=
  match Numeral.readDigits s with
  | ([], _) => none
  | ('0' :: _ :: _, _) => none
  | found => some found

/-- The digits after a decimal point, none if there is no point. -/
def readFraction? : List Char → Option (List Char × List Char)
  | '.' :: s =>
    match Numeral.readDigits s with
    | ([], _) => none
    | found => some found
  | s => some ([], s)

/-- The integer that digits without fraction and exponent denote. Zero with a minus sign
is no integer. -/
def integer? (negative : Bool) (n : Nat) : Option Int :=
  if negative then if 0 < n ∧ n ≤ 2 ^ 63 then some (-n) else none
  else if n < 2 ^ 64 then some n else none

def readNumber? (s : List Char) : Option (Json × List Char) :=
  let (negative, s) :=
    match s with
    | '-' :: s => (true, s)
    | s => (false, s)
  match readWhole? s with
  | none => none
  | some (whole, afterWhole) =>
    match readFraction? afterWhole with
    | none => none
    | some (fraction, afterFraction) =>
      match Numeral.readExponent afterFraction with
      | .error _ => none
      | .ok (exponent, rest) =>
        let plain := rest.length = afterWhole.length
        match if plain then integer? negative (Numeral.value whole) else none with
        | some n => some (.integer n, rest)
        | none =>
          match Numeral.scaled? whole fraction exponent with
          | some m => some (.number (.finite negative m), rest)
          | none => some (.unreadable, rest)

/-- The value at the start of a text that is neither an array nor an object. -/
def readScalar? (fuel : Nat) : List Char → Option (Json × List Char)
  | 'n' :: 'u' :: 'l' :: 'l' :: s => some (.null, s)
  | 't' :: 'r' :: 'u' :: 'e' :: s => some (.bool true, s)
  | 'f' :: 'a' :: 'l' :: 's' :: 'e' :: s => some (.bool false, s)
  | '"' :: s =>
    (readText? fuel s).map fun (content, rest) => (content.elim .unreadable .text, rest)
  | s => readNumber? s

/-- What may come next inside arrays and objects. -/
inductive Place where
  | value
  | member
  /-- The first item or member, or the end. -/
  | start
  /-- A comma and a further item or member, or the end. -/
  | continuation
deriving DecidableEq, Repr

/-- What follows the opening or a comma, told by the character that closes. -/
def Place.ofCloser (closer : Char) : Place :=
  if closer = ']' then .value else .member

/-- The text after a value and the arrays and objects around it, which the characters given
close, the innermost first. At most `fuel` turns are made, and a character takes at most
two. -/
def skipWithin : Nat → Place → List Char → List Char → Option (List Char)
  | 0, _, _, _ => none
  | fuel + 1, .value, closers, s =>
    match skipBlanks s with
    | '[' :: rest => skipWithin fuel .start (']' :: closers) rest
    | '\x7b' :: rest => skipWithin fuel .start ('\x7d' :: closers) rest
    | s =>
      match readScalar? fuel s with
      | some (_, rest) => skipWithin fuel .continuation closers rest
      | none => none
  | fuel + 1, .member, closers, s =>
    match skipBlanks s with
    | '"' :: s =>
      match readText? fuel s with
      | none => none
      | some (_, rest) =>
        match skipBlanks rest with
        | ':' :: rest => skipWithin fuel .value closers rest
        | _ => none
    | _ => none
  | _ + 1, _, [], s => some s
  | fuel + 1, place, closer :: closers, s =>
    match skipBlanks s with
    | [] => none
    | c :: rest =>
      if c = closer then skipWithin fuel .continuation closers rest
      else if place = .start then
        skipWithin fuel (.ofCloser closer) (closer :: closers) (c :: rest)
      else if c = ',' then skipWithin fuel (.ofCloser closer) (closer :: closers) rest
      else none

def skipValue? (fuel : Nat) (s : List Char) : Option (List Char) :=
  skipWithin (2 * fuel + 2) .value [] s

/-- At most `fuel` items separated by commas, and the closing character. -/
def readItemsWithin (readItem : List Char → Option (α × List Char)) (close : Char) :
    Nat → List Char → Option (List α × List Char)
  | 0, _ => none
  | fuel + 1, s =>
    match readItem (skipBlanks s) with
    | none => none
    | some (item, rest) =>
      match skipBlanks rest with
      | [] => none
      | c :: s =>
        if c = close then some ([item], s)
        else if c = ',' then
          (readItemsWithin readItem close fuel s).map fun (items, rest) => (item :: items, rest)
        else none

/-- The items of an array or an object whose opening character has been read. -/
def readItems? (fuel : Nat) (readItem : List Char → Option (α × List Char)) (close : Char)
    (s : List Char) : Option (List α × List Char) :=
  match skipBlanks s with
  | [] => none
  | c :: rest =>
    if c = close then some ([], rest) else readItemsWithin readItem close fuel (c :: rest)

def readMember? (fuel : Nat) (readValue : List Char → Option (Json × List Char)) :
    List Char → Option ((Option String × Json) × List Char)
  | '"' :: s =>
    match readText? fuel s with
    | none => none
    | some (key, rest) =>
      match skipBlanks rest with
      | ':' :: rest =>
        (readValue (skipBlanks rest)).map fun (value, rest) => ((key, value), rest)
      | _ => none
  | _ => none

/-- The object with the members given, unless a key denotes nothing. -/
def ofMembers (members : List (Option String × Json)) : Json :=
  match members.mapM fun (key, value) => key.map fun key => (key, value) with
  | some members => .object members
  | none => .unreadable

/-- The value at the start of a text. Of nested arrays and objects `depth` are read, and those
inside them are skipped. -/
def readValue? (fuel : Nat) : Nat → List Char → Option (Json × List Char)
  | depth + 1, '[' :: s =>
    (readItems? fuel (readValue? fuel depth) ']' s).map fun (items, rest) => (.array items, rest)
  | depth + 1, '\x7b' :: s =>
    (readItems? fuel (readMember? fuel (readValue? fuel depth)) '\x7d' s).map
      fun (members, rest) => (ofMembers members, rest)
  | 0, '[' :: s => (skipValue? fuel ('[' :: s)).map fun rest => (.unreadable, rest)
  | 0, '\x7b' :: s => (skipValue? fuel ('\x7b' :: s)).map fun rest => (.unreadable, rest)
  | _, s => readScalar? fuel s

def parse? (s : List Char) : Option Json :=
  match readValue? s.length depthLimit (skipBlanks s) with
  | some (document, rest) => if (skipBlanks rest).isEmpty then some document else none
  | none => none

/-- The document that a text as a whole denotes, if every part of it is readable. -/
def read? (s : List Char) : Option Json :=
  (parse? s).filter isReadable

end StoryScript.Json
