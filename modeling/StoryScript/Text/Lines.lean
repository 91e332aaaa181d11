/-! # Lines

A line ends at a line feed, a carriage return or the pair of both. Byte order marks at
the start of the first line belong to no line.
-/

namespace StoryScript.Text

def unifyLineEnds : List Char → List Char
  | [] => []
  | '\r' :: '\n' :: s => '\n' :: unifyLineEnds s
  | c :: s => (if c = '\r' then '\n' else c) :: unifyLineEnds s

def dropByteOrderMarks (s : List Char) : List Char :=
  s.dropWhile (· == '\uFEFF')

def lines (s : List Char) : List (List Char) :=
  (dropByteOrderMarks (unifyLineEnds s)).splitOn '\n'

theorem unifyLineEnds_ne_carriageReturn (s : List Char) : '\r' ∉ unifyLineEnds s := by
  fun_induction unifyLineEnds s with
  | case1 => simp
  | case2 s ih => simpa using ih
  | case3 c s _ ih =>
    simp only [List.mem_cons, not_or]
    refine ⟨?_, ih⟩
    split <;> rename_i h
    · decide
    · exact Ne.symm h

end StoryScript.Text
