import Eligibility.Proofs.Layout
import Mathlib.Data.List.Basic

/-!
# Words and their places

Where the words of a text stand in it. Each of them is a whole word of the text
(`IsWholeWord`), its position is the number of bytes in front of it, and its bytes are found
there. The words before it are those of the text in front of it, and the words behind it those
of the text behind it (`exists_of_wordsFrom_eq_append`).

Two texts, one behind the other, have the words of both, unless a word runs on from one into
the other (`wordsFrom_append`). So a whole word is also found where something else follows it.
-/

namespace Eligibility

/-- The text between `before` and `after` is a whole word: a parenthesis, or a run of word
characters that goes no further on either side. -/
def IsWholeWord (before text after : List Char) : Prop :=
  IsParenthesisWord text ∨
    (text ≠ [] ∧ (∀ c ∈ text, isWordChar c = true) ∧
      (∀ c ∈ before.getLast?, isWordChar c = false) ∧ ∀ c ∈ after.head?, isWordChar c = false)

theorem breaksWord_iff {text : List Char} :
    BreaksWord text ↔ ∀ c ∈ text.head?, isWordChar c = false := by
  cases text with
  | nil => exact iff_of_true breaksWord_nil (by simp)
  | cons c cs =>
      constructor
      · rintro breaks a ⟨⟩
        exact breaks c cs rfl
      · intro h
        exact breaksWord_cons (h c rfl) cs

theorem isWordChar_eq_false_of_isParenthesisWord {text : List Char} (h : IsParenthesisWord text) :
    ∀ c ∈ text, isWordChar c = false := by
  rcases h with rfl | rfl
  all_goals
    intro c hc
    obtain rfl := List.mem_singleton.1 hc
    decide

theorem IsWord.ne_nil {text : List Char} (h : IsWord text) : text ≠ [] := by
  rcases h with ⟨c, -, rfl⟩ | ⟨ne, -⟩
  · exact List.cons_ne_nil c []
  · exact ne

/-- A word is found in front of what does not carry it on. -/
theorem IsWord.wordsFrom_append {text rest : List Char} (word : IsWord text)
    (ends : IsParenthesisWord text ∨ BreaksWord rest) (position : Nat) :
    wordsFrom position (text ++ rest) =
      ⟨text, position⟩ :: wordsFrom (position + width text) rest := by
  rcases word with ⟨c, parenthesis, rfl⟩ | ⟨ne, chars⟩
  · exact wordsFrom_parenthesis parenthesis position rest
  · refine wordsFrom_word ne chars (ends.resolve_left fun parenthesis => ?_) position
    obtain ⟨c, hc⟩ := List.exists_mem_of_ne_nil text ne
    have char := chars c hc
    rw [isWordChar_eq_false_of_isParenthesisWord parenthesis c hc] at char
    contradiction

/-- The first word of a text stands behind blank characters, and the other words are those of
the rest. -/
theorem exists_of_wordsFrom_eq_cons {position : Nat} {text : List Char} {w : Word}
    {later : List Word} (h : wordsFrom position text = w :: later) :
    ∃ gap rest : List Char, text = gap ++ (w.text ++ rest) ∧ (∀ c ∈ gap, isBlank c = true) ∧
      w.position = position + width gap ∧ (IsParenthesisWord w.text ∨ BreaksWord rest) ∧
      wordsFrom (w.position + width w.text) rest = later := by
  fun_induction wordsFrom position text with
  | case1 position => cases h
  | case2 position c cs blank ih =>
      obtain ⟨gap, rest, rfl, blanks, hposition, ends, hlater⟩ := ih h
      refine ⟨c :: gap, rest, rfl, List.forall_mem_cons.2 ⟨blank, blanks⟩, ?_, ends, hlater⟩
      rw [hposition, width_cons, Nat.add_assoc]
  | case3 position c cs notBlank parenthesis ih =>
      cases h
      exact ⟨[], cs, rfl, by simp, rfl, .inl (isParenthesisWord_iff.2 ⟨c, parenthesis, rfl⟩), rfl⟩
  | case4 position c cs notBlank notParenthesis text ih =>
      cases h
      refine ⟨[], cs.dropWhile isWordChar, ?_, by simp, rfl, .inr (breaksWord_dropWhile cs), rfl⟩
      exact congrArg (c :: ·) List.takeWhile_append_dropWhile.symm

/-- A text without words is blank. -/
theorem isBlank_of_wordsFrom_eq_nil {position : Nat} {text : List Char}
    (h : wordsFrom position text = []) : ∀ c ∈ text, isBlank c = true := by
  fun_induction wordsFrom position text with
  | case1 position => simp
  | case2 position c cs blank ih => exact List.forall_mem_cons.2 ⟨blank, ih h⟩
  | case3 | case4 => cases h

theorem BreaksWord.of_append {text rest : List Char} (breaks : BreaksWord (text ++ rest)) :
    BreaksWord text := by
  rintro c cs rfl
  exact breaks c (cs ++ rest) rfl

theorem BreaksWord.append {text : List Char} (breaks : BreaksWord text) (ne : text ≠ [])
    (rest : List Char) : BreaksWord (text ++ rest) := by
  cases text with
  | nil => exact absurd rfl ne
  | cons c cs => exact breaksWord_cons (breaks c cs rfl) (cs ++ rest)

theorem IsWord.isWholeWord {before text after : List Char} (word : IsWord text)
    (begins : ∀ c ∈ before.getLast?, isWordChar c = false)
    (ends : IsParenthesisWord text ∨ BreaksWord after) : IsWholeWord before text after := by
  rcases word with parenthesis | ⟨ne, chars⟩
  · exact .inl (isParenthesisWord_iff.2 parenthesis)
  · exact ends.imp_right fun breaks => ⟨ne, chars, begins, breaksWord_iff.1 breaks⟩

/-- No word runs on from the last word before into the next one. -/
theorem IsWholeWord.append_left {first between text after : List Char} (gap : List Char)
    (word : IsWord first) (isWord : IsWord text)
    (ends : IsParenthesisWord first ∨ BreaksWord (between ++ (text ++ after)))
    (whole : IsWholeWord between text after) :
    IsWholeWord (gap ++ (first ++ between)) text after := by
  rcases whole with parenthesis | ⟨ne, chars, begins, last⟩
  · exact .inl parenthesis
  by_cases adjacent : between = []
  · subst adjacent
    rcases ends with parenthesis | breaks
    · refine .inr ⟨ne, chars, fun c hc => ?_, last⟩
      rw [List.append_nil, List.getLast?_append_of_ne_nil gap word.ne_nil] at hc
      exact isWordChar_eq_false_of_isParenthesisWord parenthesis c (List.mem_of_getLast? hc)
    · exact .inl (isParenthesisWord_of_breaksWord isWord breaks)
  · refine .inr ⟨ne, chars, fun c hc => begins c ?_, last⟩
    rwa [← List.append_assoc, List.getLast?_append_of_ne_nil _ adjacent] at hc

/-- The words of two texts, one behind the other, are those of both, unless a word runs on
from one into the other. -/
theorem wordsFrom_append {position : Nat} {text rest : List Char}
    (apart : ∀ c ∈ text.getLast?, isWordChar c = true → BreaksWord rest) :
    wordsFrom position (text ++ rest) =
      wordsFrom position text ++ wordsFrom (position + width text) rest := by
  fun_induction wordsFrom position text with
  | case1 position => rfl
  | case2 position c cs blank ih =>
      rw [List.cons_append, wordsFrom_blank blank, ih fun a ha => apart a ?_, width_cons,
        Nat.add_assoc]
      exact List.mem_getLast?_cons ha
  | case3 position c cs notBlank parenthesis ih =>
      rw [List.cons_append, wordsFrom_parenthesis parenthesis, ih fun a ha => apart a ?_,
        width_cons, Nat.add_assoc, List.cons_append]
      exact List.mem_getLast?_cons ha
  | case4 position c cs notBlank notParenthesis text ih =>
      have split : c :: cs = text ++ cs.dropWhile isWordChar := by
        rw [List.cons_append, List.takeWhile_append_dropWhile]
      have chars : ∀ a ∈ text, isWordChar a = true :=
        isWordChar_of_mem_run notBlank notParenthesis
      rw [split] at apart
      have ends : BreaksWord (cs.dropWhile isWordChar ++ rest) := by
        by_cases whole : cs.dropWhile isWordChar = []
        · -- the text ends with this word
          have ne : text ≠ [] := List.cons_ne_nil c _
          rw [whole, List.append_nil] at apart
          rw [whole]
          exact apart _ (List.getLast_mem_getLast? ne) (chars _ (List.getLast_mem ne))
        · exact (breaksWord_dropWhile cs).append whole rest
      rw [split, List.append_assoc, wordsFrom_word (List.cons_ne_nil _ _) chars ends,
        ih fun a ha => apart a (List.mem_getLast?_append_of_mem_getLast? ha), width_append,
        Nat.add_assoc, List.cons_append]

theorem IsWholeWord.isWord {before text after : List Char}
    (whole : IsWholeWord before text after) : IsWord text := by
  rcases whole with parenthesis | ⟨ne, chars, -⟩
  · exact .inl (isParenthesisWord_iff.1 parenthesis)
  · exact .inr ⟨ne, chars⟩

/-- A whole word is found behind the words before it, whatever follows that does not carry
it on. -/
theorem IsWholeWord.wordsFrom_append {before text after rest : List Char}
    (whole : IsWholeWord before text after) (breaks : BreaksWord rest) (position : Nat) :
    wordsFrom position (before ++ (text ++ rest)) =
      wordsFrom position before ++ ⟨text, position + width before⟩ ::
        wordsFrom (position + width before + width text) rest := by
  rw [Eligibility.wordsFrom_append, whole.isWord.wordsFrom_append (.inr breaks)]
  intro c hc char
  rcases whole with parenthesis | ⟨-, -, begins, -⟩
  · have apart := isWordChar_eq_false_of_isParenthesisWord parenthesis
    rcases parenthesis with rfl | rfl
    all_goals exact breaksWord_cons (apart _ List.mem_cons_self) rest
  · rw [begins c hc] at char
    contradiction

/-- A word of a text stands at its place as a whole word, between the words before it and
those behind it. -/
theorem exists_of_wordsFrom_eq_append {position : Nat} {text : List Char} {w : Word}
    {earlier later : List Word} (h : wordsFrom position text = earlier ++ w :: later) :
    ∃ before after : List Char, text = before ++ (w.text ++ after) ∧
      w.position = position + width before ∧ IsWholeWord before w.text after ∧
      wordsFrom position before = earlier ∧
      wordsFrom (w.position + width w.text) after = later := by
  have areWords : ∀ v ∈ earlier ++ w :: later, IsWord v.text := by
    rw [← h]
    exact fun _ => isWord_of_mem_wordsFrom
  have isWord : IsWord w.text := areWords w (by simp)
  induction earlier generalizing position text with
  | nil =>
      obtain ⟨gap, after, rfl, blank, hposition, ends, hlater⟩ := exists_of_wordsFrom_eq_cons h
      refine ⟨gap, after, rfl, hposition, isWord.isWholeWord (fun c hc => ?_) ends, ?_, hlater⟩
      · exact isWordChar_eq_false_of_isBlank (blank c (List.mem_of_getLast? hc))
      · rw [← List.append_nil gap, wordsFrom_gap blank, wordsFrom_nil]
  | cons first earlier ih =>
      have word : IsWord first.text := areWords first List.mem_cons_self
      obtain ⟨gap, rest, rfl, blank, hposition, ends, hlater⟩ := exists_of_wordsFrom_eq_cons h
      obtain ⟨before, after, rfl, hposition', whole, hearlier, hlater'⟩ :=
        ih hlater fun v hv => areWords v (List.mem_cons_of_mem first hv)
      refine ⟨gap ++ (first.text ++ before), after, by simp, ?_,
        whole.append_left gap word isWord ends, ?_, hlater'⟩
      · rw [hposition', hposition, width_append, width_append]
        omega
      · have goesOn : IsParenthesisWord first.text ∨ BreaksWord before :=
          ends.imp_right BreaksWord.of_append
        rw [wordsFrom_gap blank, word.wordsFrom_append goesOn, ← hposition, hearlier]

/-- The bytes of a part of a text. -/
theorem extract_toUTF8 (before text after : List Char) :
    (String.ofList (before ++ (text ++ after))).toUTF8.extract
        (width before) (width before + width text) =
      (String.ofList text).toUTF8 := by
  have size (part : List Char) : width part = (String.ofList part).toByteArray.size := by
    rw [String.size_toByteArray, ← width_toList, String.toList_ofList]
  have behind := ByteArray.extract_append_size_add (a := (String.ofList before).toByteArray)
    (b := (String.ofList (text ++ after)).toByteArray) (i := 0) (j := width text)
  rw [Nat.add_zero, ← size before] at behind
  rw [String.toUTF8_eq_toByteArray, String.ofList_append, String.toByteArray_append, behind,
    String.ofList_append, String.toByteArray_append, ByteArray.extract_append_eq_left (size text),
    String.toUTF8_eq_toByteArray]

end Eligibility
