import Eligibility.Condition

/-!
# Words

Rule text is a sequence of words. A parenthesis is a word of its own wherever it
stands; every other word is a maximal run of characters that are neither blank
nor a parenthesis. `words` lists them, each with the offset of its first byte in
the UTF-8 form of the text.

The offset of the text at hand is carried along explicitly (`wordsFrom`), so a
text read behind another one has the same words, moved by its offset.
-/

namespace Eligibility

/-- A word of a text and the byte offset at which it starts. -/
structure Word where
  text : List Char
  position : Nat
deriving DecidableEq, Repr, Inhabited

/-- The number of bytes of a text in UTF-8. -/
def width (text : List Char) : Nat :=
  text.foldr (fun c bytes => c.utf8Size + bytes) 0

@[simp] theorem width_nil : width [] = 0 := rfl

@[simp] theorem width_cons (c : Char) (cs : List Char) :
    width (c :: cs) = c.utf8Size + width cs := rfl

@[simp] theorem width_append (s t : List Char) : width (s ++ t) = width s + width t := by
  induction s with
  | nil => simp
  | cons c cs ih => rw [List.cons_append, width_cons, ih, width_cons, Nat.add_assoc]

theorem width_toList (s : String) : width s.toList = s.utf8ByteSize := by
  have bytes : ∀ text : List Char, (String.ofList text).utf8ByteSize = width text := by
    intro text
    induction text with
    | nil => rfl
    | cons c cs ih =>
      rw [String.ofList_cons, String.utf8ByteSize_append, ih, String.utf8ByteSize_singleton,
        width_cons]
  rw [← bytes, String.ofList_toList]

/-- The words of a text that starts at byte offset `position`. -/
def wordsFrom (position : Nat) : List Char → List Word
  | [] => []
  | c :: cs =>
    if isBlank c then wordsFrom (position + c.utf8Size) cs
    else if isParenthesis c then ⟨[c], position⟩ :: wordsFrom (position + c.utf8Size) cs
    else
      let text := c :: cs.takeWhile isWordChar
      ⟨text, position⟩ :: wordsFrom (position + width text) (cs.dropWhile isWordChar)
termination_by text => text.length
decreasing_by
  · simp
  · simp
  · exact Nat.lt_succ_of_le (List.dropWhile_suffix isWordChar).length_le

/-- The words of a text. -/
def words (text : List Char) : List Word :=
  wordsFrom 0 text

@[simp] theorem wordsFrom_nil (position : Nat) : wordsFrom position [] = [] := by
  simp [wordsFrom]

theorem wordsFrom_blank {c : Char} (h : isBlank c = true) (position : Nat) (cs : List Char) :
    wordsFrom position (c :: cs) = wordsFrom (position + c.utf8Size) cs := by
  rw [wordsFrom, if_pos h]

theorem wordsFrom_parenthesis {c : Char} (h : isParenthesis c = true) (position : Nat)
    (cs : List Char) :
    wordsFrom position (c :: cs) =
      ⟨[c], position⟩ :: wordsFrom (position + c.utf8Size) cs := by
  have notBlank : isBlank c = false := by
    simp only [isParenthesis, Bool.or_eq_true, decide_eq_true_eq] at h
    rcases h with rfl | rfl <;> decide
  rw [wordsFrom, if_neg (by simp [notBlank]), if_pos h]

theorem wordsFrom_wordChar {c : Char} (h : isWordChar c = true) (position : Nat)
    (cs : List Char) :
    wordsFrom position (c :: cs) =
      ⟨c :: cs.takeWhile isWordChar, position⟩ ::
        wordsFrom (position + width (c :: cs.takeWhile isWordChar))
          (cs.dropWhile isWordChar) := by
  simp only [isWordChar, Bool.and_eq_true, Bool.not_eq_true'] at h
  rw [wordsFrom, if_neg (by simp [h.2]), if_neg (by simp [h.1])]

end Eligibility
