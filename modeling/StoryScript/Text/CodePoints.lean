/-! # Sets of code points

A set of characters is an increasing list of closed ranges of code points.
Membership stops at the first range that lies above the code point.
-/

namespace StoryScript.Text

/-- Closed ranges of code points, in increasing order. -/
abbrev CodePoints := List (Nat × Nat)

namespace CodePoints

def hasCode : CodePoints → Nat → Bool
  | [], _ => false
  | (low, high) :: rest, n => if n < low then false else if n ≤ high then true else hasCode rest n

def has (ranges : CodePoints) (c : Char) : Bool :=
  ranges.hasCode c.toNat

theorem exists_range_of_hasCode {ranges : CodePoints} {n : Nat} (h : ranges.hasCode n = true) :
    ∃ r ∈ ranges, r.1 ≤ n ∧ n ≤ r.2 := by
  induction ranges with
  | nil => simp [hasCode] at h
  | cons r rest ih =>
    obtain ⟨low, high⟩ := r
    simp only [hasCode] at h
    split at h
    · simp at h
    · split at h
      · exact ⟨_, List.mem_cons_self, by omega, by assumption⟩
      · obtain ⟨r, hr, hn⟩ := ih h
        exact ⟨r, List.mem_cons_of_mem _ hr, hn⟩

end CodePoints

end StoryScript.Text
