/-!
# Blank characters

Words of a rule are separated by blank characters: those with the Unicode
property `White_Space`. The property holds of 25 characters, listed here as
ranges of code points, so that a rule may be laid out with any of them.
-/

namespace Eligibility

/-- The ranges of code points, both ends included, of the blank characters. -/
def blankRanges : List (Nat × Nat) :=
  [(0x9, 0xD), (0x20, 0x20), (0x85, 0x85), (0xA0, 0xA0), (0x1680, 0x1680),
    (0x2000, 0x200A), (0x2028, 0x2029), (0x202F, 0x202F), (0x205F, 0x205F),
    (0x3000, 0x3000)]

/-- A character is blank when its code point is in one of the ranges. -/
def isBlank (c : Char) : Bool :=
  blankRanges.any fun range => range.1 ≤ c.toNat && c.toNat ≤ range.2

/-- There are 25 blank characters. -/
theorem blankRanges_size :
    blankRanges.foldr (fun range count => range.2 + 1 - range.1 + count) 0 = 25 := by decide

theorem isBlank_of_isWhitespace {c : Char} (h : c.isWhitespace = true) :
    isBlank c = true := by
  simp only [Char.isWhitespace, Bool.or_eq_true, decide_eq_true_eq] at h
  rcases h with ((rfl | rfl) | rfl) | rfl <;> decide

end Eligibility
